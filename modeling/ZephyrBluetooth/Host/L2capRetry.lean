import ZephyrBluetooth.Host.L2capSeg

namespace ZephyrBluetooth.Host

open Data List

variable {hdrLen : Nat} {answers : SegAnswers} {state twin : SduSending}

/-! A segment that could not be sent leaves its buffer as it was, so that an SDU
that is retried goes out like one that is not. -/

variable {buf : SendBuf}

namespace SendBuf

structure Same (buf after : SendBuf) : Prop where
  data : after.data = buf.data
  headroom : after.headroom = buf.headroom
  ref : after.ref = buf.ref

theorem restore_pull (buf : SendBuf) (len : Nat) :
    (buf.pull len).restore buf = buf := by
  have whole : (buf.pull len).before ++ (buf.pull len).data =
      buf.before ++ buf.data := by
    simp only [pull, append_assoc, take_append_drop]
  simp only [restore, whole, headroom]
  rw [take_left, drop_left, take_length]
  rfl

theorem restore_push_data {bytes : List Byte} (room : bytes.length ≤ buf.headroom) :
    ((buf.push bytes).restore buf).data = buf.data ∧
      ((buf.push bytes).restore buf).headroom = buf.headroom := by
  have front : (buf.before.take (buf.before.length - bytes.length)).length +
      bytes.length = buf.before.length := by
    rw [length_take]
    unfold headroom at room
    omega
  have whole : (buf.push bytes).before ++ (buf.push bytes).data =
      (buf.before.take (buf.before.length - bytes.length) ++ bytes) ++ buf.data := by
    simp only [push, append_assoc]
  have size : (buf.before.take (buf.before.length - bytes.length) ++
      bytes).length = buf.before.length := by
    rw [length_append]
    exact front
  constructor
  · simp only [restore, whole, headroom]
    rw [drop_left' size, take_length]
  · simp only [restore, whole, headroom]
    rw [take_left' size, size]

theorem push_push (buf : SendBuf) (first second : List Byte) :
    (buf.push first).push second = buf.push (second ++ first) := by
  simp only [push, length_take, take_take, length_append,
    append_assoc, mk.injEq, and_true]
  congr 1
  omega

end SendBuf

namespace LeTx

open L2cap

variable {conf : LeTxConf}

def NoOp (conf : LeTxConf) (answers : SegAnswers) (buf : SendBuf) (restLen : Nat)
    (last : Bool) (hdrLen : Nat) : Prop :=
  (leSend conf answers buf restLen last hdrLen).1 = .again →
    (leSend conf answers buf restLen last hdrLen).2.1 = answers.credits ∧
      buf.Same (leSend conf answers buf restLen last hdrLen).2.2

def FailsWhole (conf : LeTxConf) (answers : SegAnswers) (buf : SendBuf)
    (last : Bool) (hdrLen : Nat) : Prop :=
  answers.credits ≠ 0 ∧ Whole conf buf last hdrLen ∧ answers.send = .noBufs

theorem length_sduHdr (valid : hdrLen = 0 ∨ hdrLen = sduHdrSize) (buf : SendBuf)
    (restLen : Nat) : (sduHdr buf restLen hdrLen).length = hdrLen := by
  rcases valid with rfl | rfl
  · rfl
  · rfl

variable {last : Bool}

theorem leSend_whole (fails : FailsWhole conf answers buf last hdrLen)
    (restLen : Nat) (valid : hdrLen = 0 ∨ hdrLen = sduHdrSize) :
    (leSend conf answers buf restLen last hdrLen).1 = .again ∧
      (leSend conf answers buf restLen last hdrLen).2.2.data = buf.data ∧
      (leSend conf answers buf restLen last hdrLen).2.2.headroom = buf.headroom ∧
      (leSend conf answers buf restLen last hdrLen).2.2.ref = buf.ref + 1 := by
  obtain ⟨credit, whole, noContext⟩ := fails
  have room := whole.2.1
  have wide := conf.reserve_min
  have header := length_sduHdr valid buf restLen
  simp only [leSend, if_neg credit, createSeg, if_pos whole, noContext, pushHdr]
  generalize front : le16 (buf.push (sduHdr buf restLen hdrLen)).addRef.data.length ++
    le16 conf.cid = bytes
  have size : bytes.length = 4 := by
    rw [← front]
    rfl
  have joined : (buf.push (sduHdr buf restLen hdrLen)).addRef.push bytes =
      (buf.push (bytes ++ sduHdr buf restLen hdrLen)).addRef := by
    rw [← SendBuf.push_push]
    rfl
  rw [joined]
  have restored := @SendBuf.restore_push_data buf
    (bytes ++ sduHdr buf restLen hdrLen) (by
      rw [length_append, header, size]
      omega)
  exact ⟨trivial, restored.1, restored.2, rfl⟩

theorem leSend_again {restLen : Nat}
    (spared : ¬ FailsWhole conf answers buf last hdrLen)
    (again : (leSend conf answers buf restLen last hdrLen).1 = .again) :
    (leSend conf answers buf restLen last hdrLen).2 = (answers.credits, buf) := by
  unfold leSend at again ⊢
  split
  · rename_i none
    rw [none]
  rename_i credit
  rw [if_neg credit] at again
  by_cases whole : Whole conf buf last hdrLen
  · simp only [createSeg, if_pos whole] at again ⊢
    cases sending : answers.send with
    | ok =>
      rw [sending] at again
      cases again
    | noBufs => exact absurd ⟨credit, whole, sending⟩ spared
    | notConn =>
      rw [sending] at again
      cases again
  · simp only [createSeg, if_neg whole] at again ⊢
    cases given : answers.room with
    | none => rfl
    | some =>
      rw [given] at again
      cases sending : answers.send with
      | ok =>
        simp only [sending] at again
        cases again
      | noBufs => simp only [pushHdr, SendBuf.restore_pull]
      | notConn =>
        simp only [sending] at again
        cases again

theorem noOp_iff (conf : LeTxConf) (answers : SegAnswers) (buf : SendBuf)
    (restLen : Nat) (last : Bool) (valid : hdrLen = 0 ∨ hdrLen = sduHdrSize) :
    NoOp conf answers buf restLen last hdrLen ↔
      ¬ FailsWhole conf answers buf last hdrLen := by
  constructor
  · intro noOp fails
    obtain ⟨again, _, _, _⟩ := leSend_whole fails restLen valid
    have kept := (noOp again).2.ref
    omega
  · intro spared again
    have same := leSend_again spared again
    rw [same]
    exact ⟨rfl, rfl, rfl, rfl⟩

def Refused (conf : LeTxConf) (call : SduDue) (answers : SegAnswers) : Prop :=
  answers.credits = 0 ∨
    ¬ Whole conf call.frag call.rest.isEmpty call.hdrLen ∧ answers.room = none ∨
    answers.send = .noBufs

instance decidableRefused (call : SduDue) (answers : SegAnswers) :
    Decidable (Refused conf call answers) :=
  inferInstanceAs (Decidable (_ ∨ _ ∧ _ ∨ _))

/-- A segment that is the original buffer finds a TX context, and what is
refused is neither an empty buffer with others behind it nor what follows an SDU
length field that went out alone. -/
structure AttemptSpared (conf : LeTxConf) (call : SduDue)
    (answers : SegAnswers) : Prop where
  original : ¬ FailsWhole conf answers call.frag call.rest.isEmpty call.hdrLen
  filled : Refused conf call answers → call.frag.data ≠ [] ∨ call.rest = []
  begun : Refused conf call answers → call.sent = 0 → call.hdrLen ≠ 0

def Spared (conf : LeTxConf) (state : SduSending) (answers : SegAnswers) : Prop :=
  ∀ released call, due conf state = some (released, call) →
    AttemptSpared conf call answers

def RefusedAt (conf : LeTxConf) (state : SduSending) (answers : SegAnswers) :
    Prop :=
  match due conf state with
  | none => False
  | some (_, call) => Refused conf call answers

instance decidableRefusedAt (state : SduSending) (answers : SegAnswers) :
    Decidable (RefusedAt conf state answers) := by
  unfold RefusedAt
  split <;> infer_instance

def HeadFilled (chain : List SendBuf) : Prop :=
  ∃ frag rest, chain = frag :: rest ∧ (frag.data ≠ [] ∨ rest = [])

def refsAfter (released chain : List SendBuf) : List Nat :=
  released.map SendBuf.ref ++ chain.map fun buf => buf.ref - 1

/-- The buffers of the chain were released in their order, once each; a buffer
that is still referenced keeps those behind it. -/
structure ReleasedOnce (refs : List Nat) (released : List SendBuf) : Prop where
  once : released.map SendBuf.ref <+: refs
  rest : released.length < refs.length →
    ∃ buf, released.getLast? = some buf ∧ buf.ref ≠ 0

def Steady (conf : LeTxConf) (refs : List Nat) (state : SduSending) : Prop :=
  match state.place with
  | .parked chain sent =>
    (∃ frag rest, chain = frag :: rest ∧ (frag.data ≠ [] ∨ rest = [] ∧ sent = 0)) ∧
      refsAfter state.released chain = refs
  | .looping chain sent total =>
    total = fragsLen chain + sent ∧ sent < total ∧ total ≤ conf.mtu ∧
      refsAfter state.released chain = refs
  | .done => ReleasedOnce refs state.released
  | .dropped => True

structure DueOk (conf : LeTxConf) (refs : List Nat) (released : List SendBuf)
    (call : SduDue) : Prop where
  total : call.total = fragsLen (call.frag :: call.rest) + call.sent
  fits : call.total ≤ conf.mtu
  header : call.hdrLen = sduHdrSize ∧ call.sent = 0 ∨
    call.hdrLen = 0 ∧ call.sent < call.total
  counted : refsAfter released (call.frag :: call.rest) = refs

theorem fragsLen_cons (frag : SendBuf) (rest : List SendBuf) :
    fragsLen (frag :: rest) = frag.data.length + fragsLen rest := rfl

theorem skipHead_filled {frag : SendBuf} {rest : List SendBuf}
    (filled : frag.data ≠ [] ∨ rest = []) :
    skipHead (frag :: rest) = frag :: rest := by
  rcases filled with filled | rfl
  · cases rest with
    | nil => rfl
    | cons => simp only [skipHead, if_neg filled]
  · rfl

theorem loopDue_filled {frag : SendBuf} {rest : List SendBuf}
    (filled : frag.data ≠ []) (released : List SendBuf) (sent total : Nat) :
    loopDue released (frag :: rest) sent total =
      some (released, ⟨frag, rest, sent, total, 0⟩) := by
  simp only [loopDue, if_neg filled]

variable {refs : List Nat} {released : List SendBuf} {call : SduDue}

theorem Steady.dueOk (steady : Steady conf refs state)
    (next : due conf state = some (released, call)) :
    DueOk conf refs released call := by
  unfold Steady at steady
  unfold due at next
  cases place : state.place with
  | parked chain sent =>
    rw [place] at steady next
    obtain ⟨⟨frag, rest, rfl, shape⟩, counted⟩ := steady
    simp only [skipHead_filled (shape.imp_right And.left)] at next
    split at next
    · cases next
    rename_i fits
    split at next
    · rename_i begins
      cases next
      subst begins
      exact ⟨rfl, not_lt.mp fits, .inl ⟨rfl, rfl⟩, counted⟩
    · rename_i goesOn
      have filled : frag.data ≠ [] := by
        rcases shape with filled | ⟨_, begins⟩
        · exact filled
        · exact absurd begins goesOn
      rw [loopDue_filled filled] at next
      cases next
      refine ⟨rfl, not_lt.mp fits, .inr ⟨rfl, ?_⟩, counted⟩
      have some := length_pos_iff.mpr filled
      change sent < fragsLen (frag :: rest) + sent
      rw [fragsLen_cons]
      omega
  | looping chain sent total =>
    rw [place] at steady next
    obtain ⟨whole, more, fits, counted⟩ := steady
    cases chain with
    | nil => cases next
    | cons frag rest =>
      by_cases empty : frag.data = []
      · simp only [loopDue, if_pos empty] at next
        cases rest with
        | nil => cases next
        | cons other others =>
          cases next
          refine ⟨?_, fits, .inr ⟨rfl, more⟩, ?_⟩
          · rw [whole, fragsLen_cons, empty, length_nil, zero_add]
          · rw [← counted]
            simp only [refsAfter, map_append, map_cons,
              map_nil, SendBuf.unref, append_assoc,
              singleton_append]
      · simp only [loopDue_filled empty] at next
        cases next
        exact ⟨whole, fits, .inr ⟨rfl, more⟩, counted⟩
  | done =>
    rw [place] at next
    cases next
  | dropped =>
    rw [place] at next
    cases next

section

variable {refs : List Nat} {released : List SendBuf} {call : SduDue}
  (ok : DueOk conf refs released call)
include ok

theorem DueOk.filled_sent (alone : call.frag.data = []) (last : call.rest = []) :
    call.sent = 0 := by
  rcases ok.header with ⟨_, begins⟩ | ⟨_, _⟩
  · exact begins
  have whole := ok.total
  rw [last, fragsLen_cons, alone] at whole
  simp only [length_nil, fragsLen, map_nil, sum_nil] at whole
  omega

section

variable (filled : call.frag.data ≠ [] ∨ call.rest = [])
include filled

theorem DueOk.park (begun : call.sent = 0 → call.hdrLen ≠ 0) :
    due conf ⟨.parked (call.frag :: call.rest) call.sent, released⟩ =
      some (released, call) := by
  have single := ok.filled_sent
  obtain ⟨frag, _, sent, _, _⟩ := call
  obtain ⟨whole, fits, header, _⟩ := ok
  simp only at whole fits header filled begun single
  subst whole
  simp only [due, if_neg (not_lt.mpr fits), skipHead_filled filled]
  rcases header with ⟨rfl, rfl⟩ | ⟨rfl, _⟩
  · rw [if_pos rfl]
    rfl
  have goesOn : sent ≠ 0 := fun begins => begun begins rfl
  have some : frag.data ≠ [] := by
    rcases filled with some | alone
    · exact some
    · exact fun empty => goesOn (single empty alone)
  rw [if_neg goesOn, loopDue_filled some]

theorem DueOk.parked_steady :
    Steady conf refs ⟨.parked (call.frag :: call.rest) call.sent, released⟩ := by
  refine ⟨⟨call.frag, call.rest, rfl, ?_⟩, ok.counted⟩
  by_cases empty : call.frag.data = []
  · have alone := filled.resolve_left (not_not_intro empty)
    exact .inr ⟨alone, ok.filled_sent empty alone⟩
  · exact .inl empty

end

end

theorem leSend_sent {buf left : SendBuf} {restLen credits len : Nat}
    {frame : List Byte} (valid : hdrLen = 0 ∨ hdrLen = sduHdrSize)
    (sends : leSend conf answers buf restLen last hdrLen =
      (.sent len frame, credits, left)) :
    left.ref = buf.ref ∧ (last = true ∧ len = buf.data.length ∨
        ∃ tailroom, answers.room = some tailroom ∧
          len = segLen conf tailroom hdrLen buf.data.length ∧
          left.data = buf.data.drop len) := by
  have header := length_sduHdr valid buf restLen
  unfold leSend at sends
  split at sends
  · cases sends
  by_cases whole : Whole conf buf last hdrLen
  · simp only [createSeg, if_pos whole] at sends
    cases sending : answers.send with
    | ok =>
      simp only [sending] at sends
      cases sends
      refine ⟨rfl, .inl ⟨whole.2.2, ?_⟩⟩
      simp only [segBytes, SendBuf.addRef, SendBuf.push, length_append, header]
      omega
    | noBufs =>
      simp only [sending] at sends
      cases sends
    | notConn =>
      simp only [sending] at sends
      cases sends
  · simp only [createSeg, if_neg whole] at sends
    cases given : answers.room with
    | none =>
      rw [given] at sends
      cases sends
    | some tailroom =>
      rw [given] at sends
      cases sending : answers.send with
      | ok =>
        simp only [sending] at sends
        cases sends
        have taken : (buf.data.take
            (segLen conf tailroom hdrLen buf.data.length)).length =
            segLen conf tailroom hdrLen buf.data.length :=
          length_take_of_le (min_le_left _ _)
        have length : (segBytes (buf.pull
            (segLen conf tailroom hdrLen buf.data.length))
            (.fresh (sduHdr buf restLen hdrLen ++ buf.data.take
              (segLen conf tailroom hdrLen buf.data.length)))).length -
              hdrLen = segLen conf tailroom hdrLen buf.data.length := by
          simp only [segBytes, length_append, header, taken]
          omega
        refine ⟨rfl, .inr ⟨tailroom, rfl, length, ?_⟩⟩
        rw [length]
        rfl
      | noBufs =>
        simp only [sending] at sends
        cases sends
      | notConn =>
        simp only [sending] at sends
        cases sends

theorem unrefAll_prefixed (chain : List SendBuf) :
    (unrefAll chain).map SendBuf.ref <+: chain.map fun buf => buf.ref - 1 := by
  induction chain with
  | nil => exact prefix_rfl
  | cons frag rest ih =>
    simp only [unrefAll]
    split
    · simp only [map_cons, SendBuf.unref, cons_prefix_cons, true_and]
      exact ih
    · exact ⟨rest.map fun buf => buf.ref - 1, rfl⟩

theorem unrefAll_rest (chain : List SendBuf)
    (short : (unrefAll chain).length < chain.length) :
    ∃ buf, (unrefAll chain).getLast? = some buf ∧ buf.ref ≠ 0 := by
  induction chain with
  | nil => cases short
  | cons frag rest ih =>
    simp only [unrefAll] at short ⊢
    split at short
    · rename_i last
      rw [if_pos last]
      obtain ⟨buf, ends, held⟩ := ih (Nat.lt_of_succ_lt_succ short)
      exact ⟨buf, by rw [getLast?_cons, ends]; rfl, held⟩
    · rename_i more
      rw [if_neg more]
      refine ⟨frag.unref, rfl, ?_⟩
      simp only [SendBuf.unref]
      omega

theorem releasedOnce_unrefAll {released chain : List SendBuf}
    (counted : refsAfter released chain = refs) :
    ReleasedOnce refs (released ++ unrefAll chain) := by
  subst counted
  constructor
  · rw [map_append]
    exact (prefix_append_right_inj _).mpr (unrefAll_prefixed chain)
  · intro short
    simp only [refsAfter, length_append, length_map] at short
    obtain ⟨buf, ends, held⟩ := unrefAll_rest chain (by omega)
    exact ⟨buf, by rw [getLast?_append, ends]; rfl, held⟩

theorem segLen_le (tailroom hdrLen dataLen : Nat) :
    segLen conf tailroom hdrLen dataLen ≤ dataLen :=
  min_le_left _ _

theorem DueOk.valid (ok : DueOk conf refs released call) :
    call.hdrLen = 0 ∨ call.hdrLen = sduHdrSize := by
  rcases ok.header with ⟨leads, _⟩ | ⟨goesOn, _⟩
  · exact .inr leads
  · exact .inl goesOn

theorem DueOk.sent_steady (ok : DueOk conf refs released call) {len credits : Nat}
    {frame : List Byte} {left : SendBuf}
    (sends : SduDue.send conf call answers = (.sent len frame, credits, left)) :
    Steady conf refs (settle released (left :: call.rest) (call.sent + len)
      call.total) := by
  obtain ⟨sameRef, outcome⟩ := leSend_sent ok.valid sends
  have whole := ok.total
  have counted : refsAfter released (left :: call.rest) = refs := by
    rw [← ok.counted]
    simp only [refsAfter, map_cons, sameRef]
  rw [fragsLen_cons] at whole
  simp only [settle]
  split
  · exact releasedOnce_unrefAll counted
  rename_i more
  refine ⟨?_, not_le.mp more, ok.fits, counted⟩
  rcases outcome with ⟨last, _⟩ | ⟨_, _, taken, dropped⟩
  · have alone : call.rest = [] := isEmpty_iff.mp last
    rw [alone] at whole
    simp only [fragsLen, map_nil, sum_nil] at whole
    omega
  · have bound : len ≤ call.frag.data.length := by
      rw [taken]
      exact segLen_le _ _ _
    rw [fragsLen_cons, dropped, length_drop]
    omega

theorem again_iff (conf : LeTxConf) (call : SduDue) (answers : SegAnswers) :
    (SduDue.send conf call answers).1 = .again ↔ Refused conf call answers := by
  unfold SduDue.send leSend Refused
  by_cases credit : answers.credits = 0
  · simp only [credit, if_true, true_or]
  rw [if_neg credit]
  by_cases whole : Whole conf call.frag call.rest.isEmpty call.hdrLen
  · simp only [createSeg, if_pos whole]
    cases sending : answers.send <;> simp [credit, whole]
  simp only [createSeg, if_neg whole]
  cases given : answers.room with
  | none => simp [whole]
  | some => cases sending : answers.send <;> simp [credit]

theorem attempt_refused (refused : Refused conf call answers)
    (spared : AttemptSpared conf call answers) (released : List SendBuf) :
    attempt conf released call answers =
      (⟨.parked (call.frag :: call.rest) call.sent, released⟩, []) := by
  have again := (again_iff conf call answers).mpr refused
  have same := leSend_again spared.original again
  have result : SduDue.send conf call answers =
      (.again, answers.credits, call.frag) := by
    rw [← again, ← same]
    rfl
  simp only [attempt, result]

theorem attempt_steady
    (ok : DueOk conf refs released call) (sending : ¬ Refused conf call answers) :
    Steady conf refs (attempt conf released call answers).1 := by
  have goesOn := mt (again_iff conf call answers).mp sending
  unfold attempt
  split
  · rename_i again
    rw [again] at goesOn
    exact absurd rfl goesOn
  · trivial
  · rename_i sends
    exact ok.sent_steady sends

structure Alike (conf : LeTxConf) (refs : List Nat) (state twin : SduSending) :
    Prop where
  steady : Steady conf refs state
  twinSteady : Steady conf refs twin
  same : state = twin ∨
    ∃ next, due conf state = some next ∧ due conf twin = some next

theorem Alike.due_eq (alike : Alike conf refs state twin) :
    due conf twin = due conf state := by
  rcases alike.same with rfl | ⟨_, here, there⟩
  · rfl
  · rw [here, there]

theorem next_of_due
    (next : due conf state = some (released, call)) (answers : SegAnswers) :
    (sduSendMachine conf).step state answers =
      attempt conf released call answers := by
  simp only [sduSendMachine, sendStep, next]

theorem Alike.passes (alike : Alike conf refs state twin)
    (spared : Spared conf state answers) (refused : RefusedAt conf state answers) :
    (sduSendMachine conf).emit state answers = [] ∧
      Alike conf refs ((sduSendMachine conf).next state answers) twin := by
  unfold RefusedAt at refused
  split at refused
  · cases refused
  rename_i released call next
  have within := spared released call next
  have parked := attempt_refused refused within released
  have ok := alike.steady.dueOk next
  unfold Machine.emit Machine.next
  rw [next_of_due next, parked]
  have filled := within.filled refused
  refine ⟨rfl, ok.parked_steady filled, alike.twinSteady, .inr ?_⟩
  refine ⟨(released, call), ok.park filled (within.begun refused), ?_⟩
  rw [alike.due_eq, next]

theorem Steady.next_of_none (steady : Steady conf refs state)
    (none : due conf state = none) (answers : SegAnswers) :
    Steady conf refs ((sduSendMachine conf).next state answers) := by
  simp only [Machine.next, sduSendMachine, sendStep, none]
  split
  · rename_i done
    unfold Steady at steady ⊢
    rw [done] at steady
    exact steady
  · trivial

theorem Alike.takes (alike : Alike conf refs state twin)
    (taken : ¬ RefusedAt conf state answers) :
    (sduSendMachine conf).emit twin answers =
        (sduSendMachine conf).emit state answers ∧
      Alike conf refs ((sduSendMachine conf).next state answers)
        ((sduSendMachine conf).next twin answers) ∧
      ¬ RefusedAt conf twin answers := by
  have sameDue := alike.due_eq
  have takenTwin : ¬ RefusedAt conf twin answers := by
    unfold RefusedAt at taken ⊢
    rw [sameDue]
    exact taken
  cases next : due conf state with
  | none =>
    have same : state = twin := by
      rcases alike.same with same | ⟨_, here, _⟩
      · exact same
      · rw [next] at here
        cases here
    subst same
    have kept := alike.steady.next_of_none next answers
    exact ⟨rfl, ⟨kept, kept, .inl rfl⟩, takenTwin⟩
  | some found =>
    obtain ⟨_, call⟩ := found
    rw [next] at sameDue
    have sending : ¬ Refused conf call answers := by
      unfold RefusedAt at taken
      rw [next] at taken
      exact taken
    have kept := attempt_steady (alike.steady.dueOk next) sending
    unfold Machine.emit Machine.next
    rw [next_of_due next, next_of_due sameDue]
    exact ⟨rfl, ⟨kept, kept, .inl rfl⟩, takenTwin⟩

theorem start_steady (conf : LeTxConf) {chain : List SendBuf}
    (filled : HeadFilled chain) :
    Steady conf (chain.map fun buf => buf.ref - 1) (.start chain) := by
  obtain ⟨frag, rest, rfl, shape⟩ := filled
  exact ⟨⟨frag, rest, rfl, shape.imp_right fun alone => ⟨alone, rfl⟩⟩, rfl⟩

theorem Alike.done (alike : Alike conf refs state twin)
    (done : state.place = .done) :
    twin = state ∧ ReleasedOnce refs state.released := by
  constructor
  · rcases alike.same with same | ⟨_, here, _⟩
    · exact same.symm
    · simp only [due, done] at here
      cases here
  · have steady := alike.steady
    unfold Steady at steady
    rw [done] at steady
    exact steady

structure LikeUnrefused (conf : LeTxConf) (chain : List SendBuf)
    (answers kept : List SegAnswers) : Prop where
  unrefused : (sduSendMachine conf).Along
    (fun state answers => ¬ RefusedAt conf state answers) (.start chain) kept
  frames : (sduSendMachine conf).trace (.start chain) kept =
    (sduSendMachine conf).trace (.start chain) answers
  done : ((sduSendMachine conf).run (.start chain) answers).place = .done →
    (sduSendMachine conf).run (.start chain) kept =
        (sduSendMachine conf).run (.start chain) answers ∧
      ReleasedOnce (chain.map fun buf => buf.ref - 1)
        ((sduSendMachine conf).run (.start chain) answers).released

/-- A refused segment is a no-op exactly when it is not the original buffer, and
an SDU whose attempts are spared goes out like one that is never refused. -/
theorem refused_noOp (conf : LeTxConf) : (∀ answers buf restLen last hdrLen,
      hdrLen = 0 ∨ hdrLen = sduHdrSize →
      (NoOp conf answers buf restLen last hdrLen ↔
        ¬ FailsWhole conf answers buf last hdrLen)) ∧
    ∀ chain answers, HeadFilled chain →
      (sduSendMachine conf).Along (Spared conf) (.start chain) answers →
      LikeUnrefused conf chain answers
        ((sduSendMachine conf).unskipped (RefusedAt conf) (.start chain)
          answers) := by
  refine ⟨fun answers buf restLen last hdrLen valid =>
    noOp_iff conf answers buf restLen last valid, ?_⟩
  intro chain answers filled along
  have steady := start_steady conf filled
  have start : Alike conf _ (.start chain) (.start chain) :=
    ⟨steady, steady, .inl rfl⟩
  obtain ⟨frames, alike, unrefused⟩ := Machine.unskipped_run
    (fun _ _ _ alike spared refused => alike.passes spared refused)
    (fun _ _ _ alike _ taken => alike.takes taken) start along
  exact ⟨unrefused, frames, fun done => alike.done done⟩

theorem refused_noOp_copied :
    let conf : LeTxConf := ⟨100, 5, 64, 8, by decide, by decide⟩
    let chain : List SendBuf := [⟨[], [7, 8, 9], 1⟩]
    let answers : List SegAnswers := [⟨1, none, .ok⟩, ⟨1, some 20, .ok⟩]
    (NoOp conf ⟨1, none, .ok⟩ ⟨[], [7, 8, 9], 1⟩ 0 true sduHdrSize ↔
      ¬ FailsWhole conf ⟨1, none, .ok⟩ ⟨[], [7, 8, 9], 1⟩ true sduHdrSize) ∧
    LikeUnrefused conf chain answers
      ((sduSendMachine conf).unskipped (RefusedAt conf) (.start chain) answers) := by
  intro conf chain answers
  refine ⟨(refused_noOp conf).1 _ _ _ _ _ (.inr rfl), ?_⟩
  refine (refused_noOp conf).2 chain answers ⟨_, _, rfl, .inr rfl⟩ ?_
  refine ⟨?_, ?_, trivial⟩
  · intro released call next
    cases next
    exact ⟨fun fails => absurd fails.2.2 (by decide), fun _ => .inr rfl,
      fun _ _ => by decide⟩
  · intro released call next
    cases next
    exact ⟨fun fails => absurd fails.2.2 (by decide), fun _ => .inr rfl,
      fun _ _ => by decide⟩

theorem original_leaks :
    let conf : LeTxConf := ⟨100, 5, 64, 8, by decide, by decide⟩
    let buf : SendBuf := ⟨replicate 12 0, [7, 8, 9], 1⟩
    let run := (sduSendMachine conf).run (.start [buf])
      [⟨1, none, .noBufs⟩, ⟨1, none, .ok⟩]
    ¬ NoOp conf ⟨1, none, .noBufs⟩ buf 0 true sduHdrSize ∧
      run.place = .done ∧ ¬ ReleasedOnce [buf.ref - 1] run.released := by
  intro conf buf run
  refine ⟨?_, by decide, ?_⟩
  · intro noOp
    have kept := (noOp (by decide)).2.ref
    exact absurd kept (by decide)
  · intro released
    have once := released.once
    exact absurd once (by decide)

end LeTx

end ZephyrBluetooth.Host
