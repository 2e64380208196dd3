import ZephyrBluetooth.Host.L2capRecv

namespace ZephyrBluetooth.Host

open Data List Option Bool

variable {sdu : RxSdu} {buf frame rest : List Byte} {units : List (List Byte)}
  {next : Option (Gathering Byte)}

namespace LeRx

variable (conf : LeRxConf)

def readSdu (frame : List Byte) : Option (Nat × List Byte) :=
  match pullLe16 frame with
  | some (total, rest) => if conf.mtu < total then none else some (total, rest)
  | none => none

def announced : Option (Gathering Byte) → List Byte → Option Nat
  | some gathering, _ => some gathering.total
  | none, frame => (pullLe16 frame).map Prod.fst

/-- What a K-frame should lead to.  Without `alloc_buf` it has to carry its SDU
whole. -/
def expected (before : Option (Gathering Byte)) (frame : List Byte) :
    Option (List (List Byte) × Option (Gathering Byte)) :=
  match takeFrame (readSdu conf) before frame with
  | some ([], some unfinished) =>
    if conf.allocBuf then some ([], some unfinished) else none
  | taken => taken

/-- Only whole SDUs of the announced length are handed over, none once a
disconnection was asked for, and a K-frame that fits no SDU leads to a
disconnect request. -/
structure FrameOk (frame : LeRxFrame) : Prop where
  lengths : ∀ sdu ∈ frame.out.delivered,
    announced frame.before frame.frame = some sdu.length ∧ sdu.length ≤ conf.mtu
  inTime : frame.late = true → frame.out.delivered = []
  follows : ∀ units next,
    expected conf frame.before frame.frame = some (units, next) →
      frame.out.delivered = units ∨ frame.out.delivered = [] ∧ frame.requested = true
  refuses : expected conf frame.before frame.frame = none →
    frame.out.delivered = [] ∧ frame.requested = true

def Stores (answers : RecvAnswers) (rx : LeRx) (frame : List Byte) : Prop :=
  conf.allocBuf = true → match rx.sdu with
    | some _ => frame.length ≤ answers.stored
    | none => answers.allocBuf = true ∧ frame.length ≤ answers.stored + 2

/-- Without `alloc_buf` a K-frame carries exactly the SDU that it announces, and
a K-frame that is processed after a disconnection was asked for completes
none. -/
structure FrameSpared (answers : RecvAnswers) (rx : LeRx) (frame : List Byte) :
    Prop where
  exact : conf.allocBuf = false → rx.credits ≠ 0 →
    ∀ total rest, readSdu conf frame = some (total, rest) → rest.length = total
  inTime : rx.asked = true → rx.credits ≠ 0 → Stores conf answers rx frame →
    ∀ units next, expected conf rx.gathering frame = some (units, next) → units = []

structure Sound (rx : LeRx) : Prop where
  plain : conf.allocBuf = false → rx.sdu = none
  bounded : ∀ sdu, rx.sdu = some sdu → sdu.total ≤ conf.mtu

section Steps

variable {conf} {answers : RecvAnswers} {userData : Nat} {rx : LeRx}

theorem Sound.of_sdu_eq (sound : rx.Sound conf) {next : LeRx}
    (same : next.sdu = none ∨ next.sdu = rx.sdu) : next.Sound conf := by
  rcases same with gone | kept
  · exact ⟨fun _ => gone, fun sdu begun => by rw [gone] at begun; cases begun⟩
  · exact ⟨fun plain => by rw [kept]; exact sound.plain plain,
      fun sdu begun => sound.bounded sdu (by rw [← kept]; exact begun)⟩

theorem sendCredits_sdu (pdu : Bool) (rx : LeRx) (credits : Nat) :
    (sendCredits conf pdu rx credits).1.sdu = none ∨
      (sendCredits conf pdu rx credits).1.sdu = rx.sdu := by
  unfold sendCredits
  split
  · exact .inr rfl
  · exact .inl rfl

theorem recvSdu_sdu (bytes : List Byte) (seg : Nat) (none : rx.sdu = none) :
    (recvSdu conf answers rx bytes seg).1.sdu = .none := by
  unfold recvSdu
  cases answers.recv with
  | done =>
    rcases sendCredits_sdu answers.creditsPdu rx seg with gone | same
    · exact gone
    · exact same.trans none
  | inProgress => exact none
  | error => exact none

theorem recvSeg_sdu (rx : LeRx) (sdu : RxSdu) (buf : List Byte) :
    (recvSeg conf answers rx sdu buf).1.sdu = none ∨
      ∃ left, (recvSeg conf answers rx sdu buf).1.sdu = some left ∧
        left.total = sdu.total := by
  unfold recvSeg
  split
  · exact .inr ⟨sdu, rfl, rfl⟩
  simp only
  split
  · exact .inr ⟨_, rfl, rfl⟩
  split
  · split
    · unfold updateCredits
      simp only
      split
      · exact .inr ⟨_, rfl, rfl⟩
      rcases @sendCredits_sdu conf answers.creditsPdu _ _ with gone | same
      · exact .inl gone
      · exact .inr ⟨_, same, rfl⟩
    · exact .inr ⟨_, rfl, rfl⟩
  · exact .inl (recvSdu_sdu _ _ rfl)

theorem Sound.recvSeg {base : LeRx} (segmented : conf.allocBuf = true)
    (fits : sdu.total ≤ conf.mtu) :
    (LeRx.recvSeg conf answers base sdu buf).1.Sound conf := by
  constructor
  · intro plain
    rw [segmented] at plain
    cases plain
  · intro left begun
    rcases @recvSeg_sdu conf answers base sdu buf with gone | ⟨_, kept, same⟩
    · rw [gone] at begun
      cases begun
    rw [kept] at begun
    cases begun
    rw [same]
    exact fits

theorem recvPlain_sdu (rx : LeRx) (rest : List Byte) :
    (recvPlain conf answers userData rx rest).1.sdu = none ∨
      (recvPlain conf answers userData rx rest).1.sdu = rx.sdu := by
  unfold recvPlain
  cases answers.recv with
  | done => exact sendCredits_sdu answers.creditsPdu rx 1
  | inProgress => exact .inr rfl
  | error => exact .inr rfl

theorem Sound.recvFirst (sound : rx.Sound conf) (buf : List Byte) :
    (LeRx.recvFirst conf answers userData rx buf).1.Sound conf := by
  unfold LeRx.recvFirst
  split
  · exact sound.of_sdu_eq (.inr rfl)
  split
  · exact sound.of_sdu_eq (.inr rfl)
  rename_i fits
  split
  · rename_i segmented
    split
    · exact sound.of_sdu_eq (.inr rfl)
    · exact Sound.recvSeg segmented (not_lt.mp fits)
  · exact sound.of_sdu_eq (recvPlain_sdu rx _)

theorem Sound.leRecv (sound : rx.Sound conf) (buf : List Byte) :
    (LeRx.leRecv conf answers userData rx buf).1.Sound conf := by
  have spent : rx.spend.Sound conf := sound.of_sdu_eq (.inr rfl)
  unfold LeRx.leRecv
  split
  · exact sound.of_sdu_eq (.inr rfl)
  split
  · rename_i sdu begun
    refine Sound.recvSeg ?_ (sound.bounded sdu begun)
    cases segmented : conf.allocBuf with
    | true => rfl
    | false =>
      rw [sound.plain segmented] at begun
      cases begun
  · exact spent.recvFirst buf

theorem Sound.step (sound : rx.Sound conf) (input : LeRxInput) :
    ((leRxMachine conf).next rx input).Sound conf := by
  change (LeRx.step conf rx input).1.Sound conf
  cases input with
  | arrives frame =>
    simp only [LeRx.step, arrives]
    split
    · exact sound.of_sdu_eq (.inr rfl)
    split
    · exact sound
    split
    · exact sound.leRecv frame
    · exact sound.of_sdu_eq (.inr rfl)
  | rxWork answers userData =>
    simp only [LeRx.step, rxWork]
    split
    · exact sound
    rename_i frame rest _
    have left : ({ rx with queue := rest } : LeRx).Sound conf :=
      sound.of_sdu_eq (.inr rfl)
    exact left.leRecv frame
  | recvComplete index creditsPdu =>
    simp only [LeRx.step, recvComplete]
    split
    · exact sound
    exact sound.of_sdu_eq (@sendCredits_sdu conf creditsPdu
        { rx with held := rx.held.eraseIdx index } _)

def Refused (result : LeRx × LeOut) : Prop :=
  result.2.delivered = [] ∧ result.1.asked = true

theorem recvSdu_delivers (rx : LeRx) (bytes : List Byte) (seg : Nat) :
    (recvSdu conf answers rx bytes seg).2.delivered = [bytes] := by
  unfold recvSdu
  cases answers.recv <;> rfl

theorem recvSeg_takes
    (closes : Gathering.close ⟨sdu.got ++ buf, sdu.total⟩ = some (units, next))
    (stored : buf.length ≤ answers.stored) :
    (recvSeg conf answers rx sdu buf).2.delivered = units := by
  unfold Gathering.close at closes
  simp only [length_append] at closes
  unfold recvSeg
  simp only
  split
  · rename_i excess
    rw [if_neg (by omega), if_neg (by omega)] at closes
    cases closes
  rw [if_neg (not_lt.mpr stored), take_of_length_le stored, length_append]
  split
  · rename_i short
    rw [if_pos short] at closes
    cases closes
    split <;> rfl
  · rename_i full
    rw [if_neg full] at closes
    split at closes
    · cases closes
      exact recvSdu_delivers _ _ _
    · cases closes

theorem recvSeg_excess
    (overflows : Gathering.close ⟨sdu.got ++ buf, sdu.total⟩ = none) :
    Refused (recvSeg conf answers rx sdu buf) := by
  unfold Gathering.close at overflows
  simp only [length_append] at overflows
  split at overflows
  · cases overflows
  split at overflows
  · cases overflows
  rename_i short full
  unfold recvSeg
  rw [if_pos (by omega)]
  exact ⟨rfl, rfl⟩

theorem recvSeg_unstored (full : answers.stored < buf.length) :
    Refused (recvSeg conf answers rx sdu buf) := by
  unfold recvSeg
  split
  · exact ⟨rfl, rfl⟩
  · simp only
    exact ⟨rfl, rfl⟩

theorem recvPlain_delivers (rx : LeRx) (rest : List Byte) :
    (recvPlain conf answers userData rx rest).2.delivered = [rest] := by
  unfold recvPlain
  cases answers.recv <;> rfl

variable {total : Nat}

theorem readSdu_some (read : readSdu conf frame = some (total, rest)) :
    pullLe16 frame = some (total, rest) ∧ total ≤ conf.mtu := by
  unfold readSdu at read
  split at read
  · split at read
    · cases read
    rename_i pulled fits
    cases read
    exact ⟨pulled, not_lt.mp fits⟩
  · cases read

theorem pullLe16_length (pulled : pullLe16 frame = some (total, rest)) :
    frame.length = rest.length + 2 := by
  match frame, pulled with
  | _ :: _ :: _, same =>
    cases same
    rfl

theorem close_lengths {whole : Gathering Byte}
    (closes : whole.close = some (units, next)) :
    ∀ sdu ∈ units, sdu.length = whole.total := by
  unfold Gathering.close at closes
  intro sdu member
  split at closes
  · cases closes
    cases member
  split at closes
  · rename_i full
    cases closes
    rw [mem_singleton.mp member]
    exact full
  · cases closes

theorem expected_segmented (segmented : conf.allocBuf = true)
    (before : Option (Gathering Byte)) (frame : List Byte) :
    expected conf before frame = takeFrame (readSdu conf) before frame := by
  unfold expected
  split
  · rename_i unfinished taken
    rw [if_pos segmented, taken]
  · rfl

theorem expected_plain (plain : conf.allocBuf = false)
    (expects : expected conf none frame = some (units, next)) :
    ∃ total rest, readSdu conf frame = some (total, rest) ∧
      rest.length = total ∧ units = [rest] := by
  simp only [expected, takeFrame] at expects
  cases read : readSdu conf frame with
  | none =>
    simp only [read] at expects
    cases expects
  | some header =>
    obtain ⟨total, rest⟩ := header
    simp only [read, Gathering.close] at expects
    refine ⟨total, rest, rfl, ?_⟩
    by_cases short : rest.length < total
    · simp only [if_pos short, plain, false_eq_true, if_false] at expects
      cases expects
    by_cases full : rest.length = total
    · simp only [if_neg short, if_pos full] at expects
      cases expects
      exact ⟨full, rfl⟩
    · simp only [if_neg short, if_neg full] at expects
      cases expects

theorem expected_plain_none (plain : conf.allocBuf = false)
    (read : readSdu conf frame = some (total, rest))
    (different : rest.length ≠ total) : expected conf none frame = none := by
  cases expects : expected conf none frame with
  | none => rfl
  | some outcome =>
    obtain ⟨_, _⟩ := outcome
    obtain ⟨_, _, again, same, _⟩ := expected_plain plain expects
    rw [read] at again
    cases again
    exact absurd same different

theorem expected_lengths (sound : rx.Sound conf)
    (expects : expected conf rx.gathering frame = some (units, next)) :
    ∀ sdu ∈ units, announced rx.gathering frame = some sdu.length ∧
      sdu.length ≤ conf.mtu := by
  have taken : takeFrame (readSdu conf) rx.gathering frame = some (units, next) := by
    unfold expected at expects
    split at expects
    · rename_i unfinished taken
      split at expects
      · rw [taken]
        exact expects
      · cases expects
    · exact expects
  intro sdu member
  unfold gathering at taken ⊢
  cases begun : rx.sdu with
  | some first =>
    rw [begun] at taken
    have whole := close_lengths taken sdu member
    have total : sdu.length = first.total := whole
    constructor
    · rw [total]
      rfl
    · rw [total]
      exact sound.bounded first begun
  | none =>
    rw [begun] at taken
    simp only [map_none, takeFrame] at taken
    split at taken
    · rename_i total rest read
      obtain ⟨pulled, fits⟩ := readSdu_some read
      have whole : sdu.length = total := close_lengths taken sdu member
      constructor
      · simp only [map_none, announced, pulled, map_some, whole]
      · rw [whole]
        exact fits
    · cases taken

theorem leRecv_takes (sound : rx.Sound conf) (credit : rx.credits ≠ 0)
    {frame : List Byte} (stores : Stores conf answers rx frame)
    {units : List (List Byte)} {next : Option (Gathering Byte)}
    (expects : expected conf rx.gathering frame = some (units, next)) :
    (leRecv conf answers userData rx frame).2.delivered = units := by
  unfold leRecv
  rw [if_neg credit]
  unfold gathering at expects
  unfold Stores at stores
  cases begun : rx.sdu with
  | some =>
    rw [begun] at expects stores
    have segmented : conf.allocBuf = true := by
      by_contra plain
      rw [sound.plain (not_eq_true _ ▸ plain)] at begun
      cases begun
    rw [expected_segmented segmented] at expects
    exact recvSeg_takes expects (stores segmented)
  | none =>
    rw [begun] at expects stores
    simp only [recvFirst]
    cases segmented : conf.allocBuf with
    | true =>
      obtain ⟨alloc, _⟩ := stores segmented
      rw [expected_segmented segmented] at expects
      simp only [map_none, takeFrame] at expects
      split at expects
      · rename_i total rest read
        obtain ⟨pulled, fits⟩ := readSdu_some read
        have length := pullLe16_length pulled
        simp only [pulled, if_neg (not_lt.mpr fits), alloc, Bool.not_true,
          false_eq_true, if_false, if_true]
        exact recvSeg_takes expects (by omega)
      · cases expects
    | false =>
      obtain ⟨total, rest, read, _, rfl⟩ := expected_plain segmented expects
      obtain ⟨pulled, fits⟩ := readSdu_some read
      simp only [pulled, if_neg (not_lt.mpr fits), false_eq_true, if_false]
      exact recvPlain_delivers _ _

theorem leRecv_starved (none : rx.credits = 0) :
    Refused (leRecv conf answers userData rx frame) := by
  unfold leRecv
  rw [if_pos none]
  exact ⟨rfl, rfl⟩

theorem leRecv_unstored (full : ¬ Stores conf answers rx frame) :
    Refused (leRecv conf answers userData rx frame) := by
  unfold Stores at full
  rw [Classical.not_imp] at full
  obtain ⟨_, full⟩ := full
  unfold leRecv
  split
  · exact ⟨rfl, rfl⟩
  split
  · rename_i sdu begun
    rw [begun] at full
    exact recvSeg_unstored (not_le.mp full)
  · rename_i begun
    rw [begun] at full
    unfold recvFirst
    split
    · exact ⟨rfl, rfl⟩
    rename_i total rest pulled
    have length := pullLe16_length pulled
    split
    · exact ⟨rfl, rfl⟩
    split
    · exact ⟨rfl, rfl⟩
    rename_i given
    rw [not_eq_true, not_eq_false'] at given
    exact recvSeg_unstored (by
      by_contra fits
      exact full ⟨given, by omega⟩)

theorem leRecv_unexpected (sound : rx.Sound conf)
    (exact : conf.allocBuf = false → ∀ total rest,
      readSdu conf frame = some (total, rest) → rest.length = total)
    (unexpected : expected conf rx.gathering frame = none) :
    Refused (leRecv conf answers userData rx frame) := by
  unfold leRecv
  split
  · exact ⟨rfl, rfl⟩
  unfold gathering at unexpected
  cases begun : rx.sdu with
  | some =>
    rw [begun] at unexpected
    have segmented : conf.allocBuf = true := by
      by_contra plain
      rw [sound.plain (not_eq_true _ ▸ plain)] at begun
      cases begun
    rw [expected_segmented segmented] at unexpected
    exact recvSeg_excess unexpected
  | none =>
    rw [begun] at unexpected
    simp only [recvFirst]
    split
    · exact ⟨rfl, rfl⟩
    rename_i total rest pulled
    split
    · exact ⟨rfl, rfl⟩
    rename_i fits
    have read : readSdu conf frame = some (total, rest) := by
      simp only [readSdu, pulled, if_neg fits]
    cases segmented : conf.allocBuf with
    | true =>
      rw [expected_segmented segmented] at unexpected
      simp only [map_none, takeFrame, read] at unexpected
      rw [if_pos rfl]
      split
      · exact ⟨rfl, rfl⟩
      · exact recvSeg_excess unexpected
    | false =>
      have whole := exact segmented total rest read
      simp only [map_none, expected, takeFrame, read,
        Gathering.close, whole, lt_irrefl, if_false, if_true]
        at unexpected
      cases unexpected

/-- What `take` reports of a K-frame. -/
def report (conf : LeRxConf) (answers : RecvAnswers) (userData : Nat) (rx : LeRx)
    (frame : List Byte) : LeRxFrame :=
  ⟨rx.gathering, frame, rx.asked, (leRecv conf answers userData rx frame).1.asked,
    (leRecv conf answers userData rx frame).2⟩

theorem take_eq (frame : List Byte) : take conf answers userData rx frame =
      ((leRecv conf answers userData rx frame).1,
        [report conf answers userData rx frame]) := rfl

theorem Refused.ok (refused : Refused (leRecv conf answers userData rx frame)) :
    FrameOk conf (report conf answers userData rx frame) where
  lengths := by
    intro sdu member
    have nothing : (report conf answers userData rx frame).out.delivered = [] :=
      refused.1
    rw [nothing] at member
    cases member
  inTime := fun _ => refused.1
  follows := fun _ _ _ => .inr refused
  refuses := fun _ => refused

theorem FrameSpared.ok (sound : rx.Sound conf)
    (spared : FrameSpared conf answers rx frame) :
    FrameOk conf (report conf answers userData rx frame) := by
  by_cases credit : rx.credits = 0
  · exact (leRecv_starved credit).ok
  by_cases stores : Stores conf answers rx frame
  · cases expects : expected conf rx.gathering frame with
    | none =>
      have exact := fun plain => spared.exact plain credit
      exact (leRecv_unexpected sound exact expects).ok
    | some outcome =>
      obtain ⟨units, next⟩ := outcome
      have taken := @leRecv_takes conf answers userData rx sound credit frame
        stores units next expects
      refine ⟨?_, ?_, ?_, ?_⟩
      · intro sdu member
        change sdu ∈ (leRecv conf answers userData rx frame).2.delivered at member
        rw [taken] at member
        exact expected_lengths sound expects sdu member
      · intro asked
        exact taken.trans (spared.inTime asked credit stores units next expects)
      · intro other later again
        change expected conf rx.gathering frame = _ at again
        rw [expects] at again
        cases again
        exact .inl taken
      · intro none
        change expected conf rx.gathering frame = _ at none
        rw [expects] at none
        cases none
  · exact (leRecv_unstored stores).ok

theorem FrameOk.spared (sound : rx.Sound conf)
    (ok : FrameOk conf (report conf answers userData rx frame)) :
    FrameSpared conf answers rx frame := by
  constructor
  · intro plain credit total rest read
    by_contra different
    obtain ⟨pulled, fits⟩ := readSdu_some read
    have begun := sound.plain plain
    have delivered : (leRecv conf answers userData rx frame).2.delivered =
        [rest] := by
      simp only [leRecv, if_neg credit, begun, recvFirst, pulled,
        if_neg (not_lt.mpr fits), plain, false_eq_true, if_false]
      exact recvPlain_delivers _ _
    have unexpected : expected conf rx.gathering frame = none := by
      unfold gathering
      rw [begun]
      exact expected_plain_none plain read different
    have nothing : (leRecv conf answers userData rx frame).2.delivered = [] :=
      (ok.refuses unexpected).1
    rw [delivered] at nothing
    cases nothing
  · intro asked credit stores units next expects
    have taken := @leRecv_takes conf answers userData rx sound credit frame
      stores units next expects
    rw [← taken]
    exact ok.inTime asked

theorem take_ok_iff (sound : rx.Sound conf) (frame : List Byte) :
    (∀ output ∈ (take conf answers userData rx frame).2, FrameOk conf output) ↔
      FrameSpared conf answers rx frame := by
  rw [take_eq, forall_mem_singleton]
  exact ⟨FrameOk.spared sound, FrameSpared.ok sound⟩

def Spared (conf : LeRxConf) (rx : LeRx) : LeRxInput → Prop
  | .arrives frame complete answers _ =>
    complete = true → rx.disconnecting = false → rx.shutdown = false →
      conf.dynPsm = false → FrameSpared conf answers rx frame
  | .rxWork answers _ =>
    ∀ frame rest, rx.queue = frame :: rest →
      FrameSpared conf answers { rx with queue := rest } frame
  | .recvComplete _ _ => True

theorem emit_ok_iff (sound : rx.Sound conf) (input : LeRxInput) :
    (∀ output ∈ (leRxMachine conf).emit rx input, FrameOk conf output) ↔
      Spared conf rx input := by
  change (∀ output ∈ (LeRx.step conf rx input).2, FrameOk conf output) ↔ _
  cases input with
  | arrives frame complete answers userData =>
    simp only [LeRx.step, arrives, Spared]
    split
    · rename_i partly
      refine iff_of_true (by simp) ?_
      intro whole
      rw [whole] at partly
      cases partly
    · split
      · rename_i closed
        refine iff_of_true (by simp) ?_
        intro _ connected running
        rw [connected, running] at closed
        cases closed
      · rename_i whole opened
        rw [not_eq_true, or_eq_false_iff] at opened
        rw [not_eq_true, not_eq_false'] at whole
        split
        · rename_i fixed
          rw [not_eq_true'] at fixed
          rw [take_ok_iff sound frame]
          exact ⟨fun spared _ _ _ _ => spared,
            fun spared => spared whole opened.1 opened.2 fixed⟩
        · rename_i dynamic
          refine iff_of_true (by simp) ?_
          intro _ _ _ fixed
          rw [fixed] at dynamic
          exact absurd rfl dynamic
  | rxWork answers userData =>
    simp only [LeRx.step, rxWork, Spared]
    split
    · rename_i empty
      refine iff_of_true (by simp) ?_
      intro frame rest queued
      rw [empty] at queued
      cases queued
    · rename_i frame rest queued
      have left : ({ rx with queue := rest } : LeRx).Sound conf :=
        sound.of_sdu_eq (.inr rfl)
      rw [take_ok_iff left frame]
      constructor
      · intro spared other others same
        rw [queued] at same
        cases same
        exact spared
      · intro spared
        exact spared frame rest queued
  | recvComplete => exact iff_of_true (by simp [LeRx.step]) trivial

theorem start_sound (conf : LeRxConf) : (start conf).Sound conf :=
  ⟨fun _ => rfl, fun sdu begun => by cases begun⟩

end Steps

end LeRx

/-- In every run the SDUs handed over have the announced length, and all other
K-frames end in a disconnect request, exactly when every K-frame is spared. -/
theorem leRx_lengths (conf : LeRxConf) (inputs : List LeRxInput) :
    (∀ frame ∈ (leRxMachine conf).trace (.start conf) inputs,
        LeRx.FrameOk conf frame) ↔
      (leRxMachine conf).Along (LeRx.Spared conf) (.start conf) inputs := by
  have kept (rx : LeRx) (input : LeRxInput) (sound : rx.Sound conf) :
      ((leRxMachine conf).next rx input).Sound conf := sound.step input
  exact Machine.trace_iff_along_of kept
    (fun _ input sound => LeRx.emit_ok_iff sound input)
    (LeRx.start_sound conf) inputs

def plainRecv : RecvAnswers := ⟨false, 0, .done, true, true⟩

def plainChannel : LeRxConf := leRxInit 65 5 0 0 false true

theorem leRx_short_delivered :
    ((leRxMachine plainChannel).trace (.start plainChannel)
        [.arrives [5, 0, 1, 2] true plainRecv 0, .rxWork plainRecv 0]).map
      (fun frame => frame.out.delivered) = [[[1, 2]]] ∧
    ¬ ∀ frame ∈ (leRxMachine plainChannel).trace (.start plainChannel)
        [.arrives [5, 0, 1, 2] true plainRecv 0, .rxWork plainRecv 0],
      LeRx.FrameOk plainChannel frame := by
  refine ⟨rfl, ?_⟩
  intro ok
  have first := ok _ mem_cons_self
  have lengths := first.lengths [1, 2] mem_cons_self
  exact absurd lengths.1 (by decide)

end ZephyrBluetooth.Host
