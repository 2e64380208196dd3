import ZephyrBluetooth.Host.L2capRecvLength

namespace ZephyrBluetooth.Host

open Data List Option Bool

/-! A sender that keeps to the credits, the MTU and the MPS of a channel, and the
receiver that has to keep it supplied. -/

/-- The receiver, the credits of the sender, what is on its way, and what has
been sent of the SDU that the sender is at. -/
structure LeLink where
  rx : LeRx
  txCredits : Nat
  frames : List (List Byte)
  grants : List Nat
  sending : Option (Gathering Byte)

inductive LeLinkInput where
  | send (frame : List Byte)
  | frameArrives (answers : RecvAnswers)
  | rxWork (answers : RecvAnswers)
  | recvComplete (index : Nat) (creditsPdu : Bool)
  | creditsArrive

namespace LeLink

variable (conf : LeRxConf)

def start : LeLink where
  rx := LeRx.start conf
  txCredits := conf.initCredits
  frames := []
  grants := []
  sending := none

def send (frame : List Byte) (link : LeLink) : LeLink :=
  match takeFrame (LeRx.readSdu conf) link.sending frame with
  | none => link
  | some (_, next) =>
    { link with
      txCredits := link.txCredits - 1
      frames := link.frames ++ [frame]
      sending := next }

def received (result : LeRx × List LeRxFrame) (link : LeLink) : LeLink :=
  { link with
    rx := result.1
    grants := link.grants ++ result.2.flatMap fun frame => frame.out.grants }

def frameArrives (answers : RecvAnswers) (link : LeLink) : LeLink :=
  match link.frames with
  | [] => link
  | frame :: rest =>
    ({ link with frames := rest }).received
      (LeRx.arrives conf frame true answers 0 link.rx)

def rxWork (answers : RecvAnswers) (link : LeLink) : LeLink :=
  link.received (LeRx.rxWork conf answers 0 link.rx)

def recvComplete (index : Nat) (creditsPdu : Bool) (link : LeLink) : LeLink :=
  let (rx, grants) := LeRx.recvComplete conf index creditsPdu link.rx
  { link with rx, grants := link.grants ++ grants }

def creditsArrive (link : LeLink) : LeLink :=
  match link.grants with
  | [] => link
  | credits :: rest =>
    { link with txCredits := link.txCredits + credits, grants := rest }

def step (link : LeLink) : LeLinkInput → LeLink
  | .send frame => link.send conf frame
  | .frameArrives answers => link.frameArrives conf answers
  | .rxWork answers => link.rxWork conf answers
  | .recvComplete index creditsPdu => link.recvComplete conf index creditsPdu
  | .creditsArrive => link.creditsArrive

end LeLink

def leLinkMachine (conf : LeRxConf) : Machine LeLink LeLinkInput Empty where
  step link input := (link.step conf input, [])

namespace LeRx

variable (conf : LeRxConf)

def Open (rx : LeRx) : Prop :=
  rx.disconnecting = false ∧ rx.shutdown = false

structure Supplied (answers : RecvAnswers) : Prop where
  allocBuf : answers.allocBuf = true
  stored : conf.mtu ≤ answers.stored
  creditsPdu : answers.creditsPdu = true

def frameSeg (rx : LeRx) : Nat :=
  nextSeg (rx.sdu.getD ⟨[], 0, 0⟩)

/-- A K-frame that takes the last credit, while no SDU is held back, completes
its SDU or is the one at which credits are topped up; and the SDU has fewer
K-frames than the 16-bit count can tell. -/
structure ToppedUp (rx : LeRx) (frame : List Byte) : Prop where
  counted : rx.frameSeg ≠ 0
  topUp : rx.credits = 1 → rx.held = [] → ∀ next,
    takeFrame (readSdu conf) rx.gathering frame = some ([], some next) →
      rx.frameSeg = conf.initCredits

end LeRx

namespace LeLink

variable (conf : LeRxConf)

/-- The sender has a credit for the K-frame, which is no longer than the MPS
and goes on with an SDU within the MTU, and there are buffers. -/
def Conforming (link : LeLink) : LeLinkInput → Prop
  | .send frame =>
    0 < link.txCredits ∧ frame.length ≤ conf.mps ∧
      takeFrame (LeRx.readSdu conf) link.sending frame ≠ none
  | .frameArrives answers => LeRx.Supplied conf answers
  | .rxWork answers => LeRx.Supplied conf answers
  | .recvComplete _ creditsPdu => creditsPdu = true
  | .creditsArrive => True

def Spared (link : LeLink) : LeLinkInput → Prop
  | .frameArrives _ => conf.dynPsm = false → ∀ frame rest,
      link.frames = frame :: rest → LeRx.ToppedUp conf link.rx frame
  | .rxWork _ => ∀ frame rest,
      link.rx.queue = frame :: rest → LeRx.ToppedUp conf link.rx frame
  | _ => True

/-- The receiver waits for the rest of an SDU, the sender has no credit for it,
and none is on its way although every buffer is available. -/
structure Starved (link : LeLink) : Prop where
  connected : link.rx.Open
  unfinished : link.rx.sdu.isSome = true
  spent : link.rx.credits = 0
  noGrant : link.grants = []
  noneHeld : link.rx.held = []

end LeLink

namespace LeRx

section Taken

variable {conf : LeRxConf} {answers : RecvAnswers} {userData : Nat} {rx : LeRx}

structure Taken (conf : LeRxConf) (rx : LeRx) (seg : Nat)
    (state : Option (Gathering Byte)) (result : LeRx × LeOut) : Prop where
  gathers : result.1.gathering = state
  queue : result.1.queue = rx.queue
  credits : result.1.credits = rx.credits + result.2.grants.sum
  held : result.1.held = rx.held ∨ result.1.held = rx.held ++ [seg]
  topped : state.isSome = true → result.1.credits = 0 → seg ≠ conf.initCredits

theorem sendCredits_granted {credits : Nat} : sendCredits conf true rx credits =
      ({ rx with credits := rx.credits + min credits conf.initCredits },
        [min credits conf.initCredits]) := rfl

theorem estimate_pos {total len mps : Nat} (more : len < total)
    (positive : 0 < mps) : 0 < (total - len + (mps - 1)) / mps := by
  apply Nat.div_pos _ positive
  omega

section

variable (supplied : Supplied conf answers)
include supplied

theorem recvSdu_taken (bytes : List Byte) (seg : Nat) (none : rx.sdu = none) :
    Taken conf rx seg .none (recvSdu conf answers rx bytes seg) := by
  have unfinished : rx.gathering = .none := by
    unfold gathering
    rw [none]
    rfl
  unfold recvSdu
  rw [supplied.creditsPdu]
  cases answers.recv with
  | done =>
    simp only [sendCredits_granted]
    exact ⟨unfinished, rfl, by simp, .inl rfl, fun some => by cases some⟩
  | inProgress => exact ⟨unfinished, rfl, rfl, .inr rfl, fun some => by cases some⟩
  | error => exact ⟨unfinished, rfl, rfl, .inl rfl, fun some => by cases some⟩

theorem recvSeg_taken
    (positive : 0 < conf.initCredits) (wide : 0 < conf.mps) {sdu : RxSdu}
    {buf : List Byte} {units : List (List Byte)}
    {state : Option (Gathering Byte)} (fits : sdu.total ≤ conf.mtu)
    (closes : Gathering.close ⟨sdu.got ++ buf, sdu.total⟩ = some (units, state)) :
    Taken conf rx (nextSeg sdu) state (recvSeg conf answers rx sdu buf) := by
  have stored := supplied.stored
  unfold Gathering.close at closes
  simp only [length_append] at closes
  unfold recvSeg
  simp only
  split
  · rename_i excess
    rw [if_neg (by omega), if_neg (by omega)] at closes
    cases closes
  rename_i within
  rw [if_neg (by omega), take_of_length_le (by omega), length_append]
  split
  · rename_i short
    rw [if_pos short] at closes
    cases closes
    split
    · rename_i last
      have estimate := @estimate_pos sdu.total buf.length conf.mps (by omega) wide
      have behind : ¬ (sdu.total - buf.length + (conf.mps - 1)) / conf.mps <
          rx.credits := by omega
      simp only [updateCredits, if_neg behind, supplied.creditsPdu,
        sendCredits_granted]
      refine ⟨rfl, rfl, by simp, .inl rfl, ?_⟩
      intro _ spent
      simp only at spent
      omega
    · rename_i notLast
      refine ⟨rfl, rfl, rfl, .inl rfl, ?_⟩
      intro _ spent same
      exact notLast ⟨spent, same⟩
  · rename_i full
    rw [if_neg full] at closes
    split at closes
    · cases closes
      have handed := @recvSdu_taken conf answers { rx with sdu := none } supplied
        (sdu.got ++ buf) (nextSeg sdu) rfl
      exact ⟨handed.gathers, handed.queue, handed.credits, handed.held,
        handed.topped⟩
    · cases closes

theorem leRecv_taken
    (segmented : conf.allocBuf = true) (positive : 0 < conf.initCredits)
    (wide : 0 < conf.mps) (sound : rx.Sound conf) (credit : rx.credits ≠ 0)
    {frame : List Byte} {units : List (List Byte)}
    {state : Option (Gathering Byte)}
    (taken : takeFrame (readSdu conf) rx.gathering frame = some (units, state)) :
    Taken conf rx.spend rx.frameSeg state
      (leRecv conf answers userData rx frame) := by
  unfold leRecv frameSeg
  rw [if_neg credit]
  unfold gathering at taken
  cases begun : rx.sdu with
  | some sdu =>
    rw [begun] at taken
    exact recvSeg_taken supplied positive wide (sound.bounded sdu begun) taken
  | none =>
    rw [begun] at taken
    simp only [map_none, takeFrame] at taken
    split at taken
    · rename_i total rest read
      obtain ⟨pulled, fits⟩ := readSdu_some read
      simp only [recvFirst, pulled, if_neg (not_lt.mpr fits), segmented,
        if_true, supplied.allocBuf, Bool.not_true, false_eq_true,
        if_false]
      exact @recvSeg_taken conf answers rx.spend supplied positive wide
        ⟨[], total, 0⟩ rest units state fits taken
    · cases taken

end

end Taken

section Opens

variable {conf : LeRxConf} {answers : RecvAnswers} {userData : Nat} {rx : LeRx}

theorem disconnect_opens (connected : (disconnect answers rx).Open) : rx.Open := by
  have before := connected.1
  simp only [disconnect, or_eq_false_iff] at before
  exact ⟨before.1, connected.2⟩

theorem sendCredits_opens {pdu : Bool} {credits : Nat}
    (connected : (sendCredits conf pdu rx credits).1.Open) : rx.Open := by
  unfold sendCredits at connected
  split at connected
  · exact connected
  · cases connected.2

theorem recvSdu_opens {bytes : List Byte} {seg : Nat}
    (connected : (recvSdu conf answers rx bytes seg).1.Open) : rx.Open := by
  unfold recvSdu at connected
  split at connected
  · exact sendCredits_opens connected
  · exact connected
  · exact disconnect_opens connected

variable {buf : List Byte}

theorem recvSeg_opens {sdu : RxSdu}
    (connected : (recvSeg conf answers rx sdu buf).1.Open) : rx.Open := by
  unfold recvSeg at connected
  simp only at connected
  split at connected
  · exact disconnect_opens connected
  split at connected
  · exact disconnect_opens connected
  split at connected
  · split at connected
    · unfold updateCredits at connected
      simp only at connected
      split at connected
      · exact connected
      · have before := sendCredits_opens connected
        exact before
    · exact connected
  · have before := recvSdu_opens connected
    exact before

theorem recvFirst_opens
    (connected : (recvFirst conf answers userData rx buf).1.Open) : rx.Open := by
  unfold recvFirst at connected
  split at connected
  · exact disconnect_opens connected
  split at connected
  · exact disconnect_opens connected
  split at connected
  · split at connected
    · exact disconnect_opens connected
    · exact recvSeg_opens connected
  · unfold recvPlain at connected
    split at connected
    · exact sendCredits_opens connected
    · exact connected
    · exact disconnect_opens connected

theorem leRecv_opens
    (connected : (leRecv conf answers userData rx buf).1.Open) : rx.Open := by
  unfold leRecv at connected
  split at connected
  · exact disconnect_opens connected
  split at connected
  · have before := recvSeg_opens connected
    exact before
  · have before := recvFirst_opens connected
    exact before

end Opens

end LeRx

namespace LeLink

variable {conf : LeRxConf} {link : LeLink}

/-- While the channel is open every frame on its way fits, the credits add up,
and an unfinished SDU has a credit or an SDU held back that will return one. -/
structure Fed (conf : LeRxConf) (link : LeLink) : Prop where
  sound : link.rx.Sound conf
  direct : link.rx.Open → conf.dynPsm = false → link.rx.queue = []
  gathers : link.rx.Open → ∃ units, Gathers (LeRx.readSdu conf) link.rx.gathering
    (link.rx.queue ++ link.frames) units link.sending
  balance : link.rx.Open → link.rx.credits =
    link.txCredits + (link.rx.queue.length + link.frames.length) + link.grants.sum
  returns : link.rx.Open → ∀ seg ∈ link.rx.held, 0 < seg
  supplied : link.rx.Open → link.rx.sdu.isSome = true → link.rx.credits = 0 →
    link.rx.held ≠ []

section

variable (fed : link.Fed conf)
include fed

theorem Fed.notStarved : ¬ link.Starved := by
  intro starved
  exact fed.supplied starved.connected starved.unfinished starved.spent
    starved.noneHeld

theorem Fed.send {frame : List Byte}
    (credit : 0 < link.txCredits) : (link.send conf frame).Fed conf := by
  unfold LeLink.send
  split
  · exact fed
  rename_i units next taken
  refine ⟨fed.sound, fed.direct, ?_, ?_, fed.returns, fed.supplied⟩
  · intro connected
    obtain ⟨earlier, gathers⟩ := fed.gathers connected
    refine ⟨earlier ++ units, ?_⟩
    rw [← append_assoc]
    exact gathers.append (.single taken)
  · intro connected
    have balance := fed.balance connected
    simp only [length_append, length_singleton]
    omega

theorem Fed.creditsArrive : link.creditsArrive.Fed conf := by
  unfold LeLink.creditsArrive
  split
  · exact fed
  rename_i credits rest grants
  refine ⟨fed.sound, fed.direct, fed.gathers, ?_, fed.returns, fed.supplied⟩
  intro connected
  have balance := fed.balance connected
  rw [grants, sum_cons] at balance
  simp only
  omega

theorem Fed.recvComplete (positive : 0 < conf.initCredits) (index : Nat) :
    (link.recvComplete conf index true).Fed conf := by
  unfold LeLink.recvComplete LeRx.recvComplete
  cases held : link.rx.held[index]? with
  | none =>
    simp only [append_nil]
    exact fed
  | some seg =>
    simp only [LeRx.sendCredits_granted]
    refine ⟨fed.sound.of_sdu_eq (.inr rfl), fed.direct, fed.gathers, ?_, ?_, ?_⟩
    · intro connected
      have balance := fed.balance connected
      simp only [sum_append, sum_singleton]
      omega
    · intro connected other member
      exact fed.returns connected other (mem_of_mem_eraseIdx member)
    · intro connected _ spent
      have returned := fed.returns connected seg (mem_of_getElem? held)
      simp only at spent
      omega

end

section

variable (fed : link.Fed conf) {answers : RecvAnswers}
  (supplied : LeRx.Supplied conf answers) (segmented : conf.allocBuf = true)
  (positive : 0 < conf.initCredits) (wide : 0 < conf.mps)
include fed supplied segmented positive wide

theorem Fed.process {frame : List Byte} {queue frames : List (List Byte)}
    (split : link.rx.queue ++ link.frames = frame :: (queue ++ frames))
    (direct : link.rx.Open → conf.dynPsm = false → queue = [])
    (spared : LeRx.ToppedUp conf link.rx frame) :
    Fed conf (({ link with frames := frames } : LeLink).received
      (LeRx.take conf answers 0 { link.rx with queue := queue } frame)) := by
  have sound : ({ link.rx with queue := queue } : LeRx).Sound conf :=
    fed.sound.of_sdu_eq (.inr rfl)
  have kept := @LeRx.Sound.leRecv conf answers 0 _ sound frame
  have opens := @LeRx.leRecv_opens conf answers 0
    { link.rx with queue := queue } frame
  have takes : link.rx.Open → ∃ units state later,
      takeFrame (LeRx.readSdu conf) link.rx.gathering frame = some (units, state) ∧
        Gathers (LeRx.readSdu conf) state (queue ++ frames) later link.sending ∧
        link.rx.credits ≠ 0 ∧
        LeRx.Taken conf ({ link.rx with queue := queue } : LeRx).spend
          link.rx.frameSeg state (LeRx.leRecv conf answers 0
            { link.rx with queue := queue } frame) := by
    intro connected
    obtain ⟨units, gathers⟩ := fed.gathers connected
    have balance := fed.balance connected
    have lengths := congrArg length split
    rw [length_append, length_cons] at lengths
    have credit : link.rx.credits ≠ 0 := by omega
    rw [split] at gathers
    cases gathers with
    | cons first rest =>
      exact ⟨_, _, _, first, rest, credit,
        @LeRx.leRecv_taken conf answers 0 { link.rx with queue := queue }
          supplied segmented positive wide sound credit frame _ _ first⟩
  refine ⟨kept, ?_, ?_, ?_, ?_, ?_⟩
  · intro connected fixed
    have before : link.rx.Open := opens connected
    obtain ⟨_, _, _, _, _, _, taken⟩ := takes before
    exact taken.queue.trans (direct before fixed)
  · intro connected
    obtain ⟨_, state, later, _, rest, _, taken⟩ := takes (opens connected)
    refine ⟨later, ?_⟩
    have gathers := taken.gathers
    have left := taken.queue
    simp only [LeLink.received, LeRx.take]
    rw [gathers, left]
    exact rest
  · intro connected
    have before : link.rx.Open := opens connected
    obtain ⟨_, _, _, _, _, credit, taken⟩ := takes before
    have balance := fed.balance before
    have lengths := congrArg length split
    rw [length_append, length_cons, length_append] at lengths
    have credits := taken.credits
    have left := taken.queue
    simp only [LeRx.spend] at credits left
    simp only [LeLink.received, LeRx.take, credits, left, flatMap_cons,
      flatMap_nil, append_nil, sum_append]
    omega
  · intro connected seg member
    have before : link.rx.Open := opens connected
    obtain ⟨_, _, _, _, _, _, taken⟩ := takes before
    simp only [LeLink.received, LeRx.take] at member
    rcases taken.held with same | more
    · rw [same] at member
      exact fed.returns before seg member
    rw [more] at member
    rcases mem_append.mp member with old | new
    · exact fed.returns before seg old
    · rw [mem_singleton.mp new]
      exact Nat.pos_of_ne_zero spared.counted
  · intro connected unfinished spent held
    have before : link.rx.Open := opens connected
    obtain ⟨units, state, _, first, _, credit, taken⟩ := takes before
    simp only [LeLink.received, LeRx.take] at unfinished spent held
    have more : state.isSome = true := by
      rw [← taken.gathers, LeRx.gathering, isSome_map]
      exact unfinished
    obtain ⟨next, rfl⟩ := isSome_iff_exists.mp more
    have noneHeld : link.rx.held = [] := by
      rcases taken.held with same | longer
      · exact same.symm.trans held
      · rw [held] at longer
        exact absurd longer.symm (append_ne_nil_of_right_ne_nil _ (by simp))
    have lastCredit : link.rx.credits = 1 := by
      have credits := taken.credits
      rw [spent] at credits
      simp only [LeRx.spend] at credits
      omega
    have alone := takeFrame_unfinished (LeRx.readSdu conf) first
    rw [alone] at first
    exact taken.topped rfl spent (spared.topUp lastCredit noneHeld next first)

theorem Fed.frameArrives (spared : link.Spared conf (.frameArrives answers)) :
    (link.frameArrives conf answers).Fed conf := by
  unfold LeLink.frameArrives
  cases arriving : link.frames with
  | nil => exact fed
  | cons frame rest =>
    simp only [LeRx.arrives, Bool.not_true, false_eq_true, if_false]
    split
    · rename_i closed
      have shut : ¬ link.rx.Open := by
        intro connected
        rw [connected.1, connected.2] at closed
        cases closed
      refine ⟨fed.sound, ?_, ?_, ?_, ?_, ?_⟩
      · exact fun connected => absurd connected shut
      · exact fun connected => absurd connected shut
      · exact fun connected => absurd connected shut
      · exact fun connected => absurd connected shut
      · exact fun connected => absurd connected shut
    · rename_i opened
      rw [not_eq_true, or_eq_false_iff] at opened
      split
      · rename_i fixed
        rw [not_eq_true'] at fixed
        have empty := fed.direct opened fixed
        have processed := @Fed.process conf link fed answers supplied segmented
          positive wide frame [] rest (by rw [empty, arriving]; rfl)
          (fun _ _ => rfl) (spared fixed frame rest arriving)
        have same : ({ link.rx with queue := [] } : LeRx) = link.rx := by
          rw [← empty]
        rw [same] at processed
        exact processed
      · rename_i dynamic
        refine ⟨fed.sound.of_sdu_eq (.inr rfl), ?_, ?_, ?_, ?_, ?_⟩
        · intro _ fixed
          rw [fixed] at dynamic
          exact absurd rfl dynamic
        · intro connected
          obtain ⟨units, gathers⟩ := fed.gathers connected
          rw [arriving] at gathers
          refine ⟨units, ?_⟩
          simp only [LeLink.received, append_assoc, singleton_append]
          exact gathers
        · intro connected
          have balance := fed.balance connected
          rw [arriving, length_cons] at balance
          simp only [LeLink.received, length_append, length_singleton,
            flatMap_nil, append_nil]
          omega
        · exact fed.returns
        · exact fed.supplied

theorem Fed.rxWork (spared : link.Spared conf (.rxWork answers)) :
    (link.rxWork conf answers).Fed conf := by
  unfold LeLink.rxWork LeRx.rxWork
  cases queued : link.rx.queue with
  | nil =>
    simp only [LeLink.received, flatMap_nil, append_nil]
    exact fed
  | cons frame rest =>
    refine fed.process supplied segmented positive wide
      (by rw [queued, cons_append]) ?_ (spared frame rest queued)
    intro connected fixed
    have empty := fed.direct connected fixed
    rw [queued] at empty
    cases empty

end

theorem start_fed (conf : LeRxConf) : (start conf).Fed conf where
  sound := LeRx.start_sound conf
  direct := fun _ _ => rfl
  gathers := fun _ => ⟨[], .nil none⟩
  balance := fun _ => rfl
  returns := fun _ _ member => by cases member
  supplied := fun _ unfinished => by cases unfinished

theorem Fed.step (fed : link.Fed conf) (segmented : conf.allocBuf = true)
    (positive : 0 < conf.initCredits) (wide : 0 < conf.mps)
    {input : LeLinkInput} (conforming : link.Conforming conf input)
    (spared : link.Spared conf input) :
    ((leLinkMachine conf).next link input).Fed conf := by
  cases input with
  | send => exact fed.send conforming.1
  | frameArrives => exact fed.frameArrives conforming segmented positive wide spared
  | rxWork => exact fed.rxWork conforming segmented positive wide spared
  | recvComplete index creditsPdu =>
    have given : creditsPdu = true := conforming
    rw [given]
    exact fed.recvComplete positive index
  | creditsArrive => exact fed.creditsArrive

end LeLink

theorem leRxInit_pos {rxMtu : Nat} (wide : 23 ≤ rxMtu)
    (maxCredits presetMtu presetCredits : Nat) (dynPsm : Bool) :
    let conf := leRxInit rxMtu maxCredits presetMtu presetCredits true dynPsm
    0 < conf.initCredits ∧ 0 < conf.mps := by
  simp only [leRxInit, Bool.not_true, Bool.false_and, false_eq_true, if_false,
    if_true, Sdu.hdrSize]
  refine ⟨?_, by omega⟩
  split
  · omega
  · apply Nat.div_pos _ (by omega)
    split <;> omega

/-- A channel with `alloc_buf` starves no conforming sender in a run whose
K-frames never take the last credit of an SDU without topping it up. -/
theorem leLink_notStarved {rxMtu : Nat} (wide : 23 ≤ rxMtu)
    (maxCredits presetMtu presetCredits : Nat) (dynPsm : Bool)
    {inputs : List LeLinkInput}
    (along : (leLinkMachine (leRxInit rxMtu maxCredits presetMtu presetCredits
        true dynPsm)).Along (fun link input =>
        link.Conforming (leRxInit rxMtu maxCredits presetMtu presetCredits true
          dynPsm) input ∧
        link.Spared (leRxInit rxMtu maxCredits presetMtu presetCredits true
          dynPsm) input)
      (.start (leRxInit rxMtu maxCredits presetMtu presetCredits true dynPsm))
      inputs) :
    (leLinkMachine (leRxInit rxMtu maxCredits presetMtu presetCredits true
        dynPsm)).Always (fun link => ¬ link.Starved)
      (.start (leRxInit rxMtu maxCredits presetMtu presetCredits true dynPsm))
      inputs := by
  obtain ⟨positive, someMps⟩ :=
    leRxInit_pos wide maxCredits presetMtu presetCredits dynPsm
  apply Machine.Always.mono (fun _ fed => LeLink.Fed.notStarved fed)
  apply Machine.always_of_along _ (LeLink.start_fed _) along
  intro link input fed admitted
  exact fed.step rfl positive someMps admitted.1 admitted.2

def readyRecv : RecvAnswers := ⟨true, 0xffff, .done, true, true⟩

def twoFrames : List LeLinkInput :=
  [.send [3, 0, 7], .frameArrives readyRecv, .rxWork readyRecv, .creditsArrive,
    .send [8, 9], .frameArrives readyRecv, .rxWork readyRecv]

def smallChannel : LeRxConf := leRxInit 65 5 23 0 true true

theorem leLink_notStarved_two :
    (leLinkMachine smallChannel).Always (fun link => ¬ link.Starved)
      (.start smallChannel) twoFrames := by
  have ready : LeRx.Supplied smallChannel readyRecv := ⟨rfl, by decide, rfl⟩
  refine @leLink_notStarved 65 (by decide) 5 23 0 true twoFrames ?_
  refine ⟨⟨⟨by decide, by decide, by decide⟩, trivial⟩, ⟨ready, ?_⟩, ⟨ready, ?_⟩,
    ⟨trivial, trivial⟩, ⟨⟨by decide, by decide, by decide⟩, trivial⟩,
    ⟨ready, ?_⟩, ⟨ready, ?_⟩, trivial⟩
  · intro fixed
    cases fixed
  · intro frame rest queued
    cases queued
    exact ⟨by decide, fun _ _ _ _ => rfl⟩
  · intro fixed
    cases fixed
  · intro frame rest queued
    cases queued
    refine ⟨by decide, ?_⟩
    intro _ _ next taken
    cases taken

/-- The same SDU in three K-frames, as the sender of this host cuts a chain of
three buffers: credits are topped up at the first K-frame only. -/
def threeFrames : List LeLinkInput :=
  [.send [3, 0, 7], .frameArrives readyRecv, .rxWork readyRecv, .creditsArrive,
    .send [8], .frameArrives readyRecv, .rxWork readyRecv]

theorem smallSender_min : 23 ≤ 23 := by decide

theorem smallSender_max : 23 ≤ 0xffff := by decide

theorem smallSender_mps : 23 ≤ 25 := by decide

def smallSender : SduConfig :=
  ⟨23, 25, 1, 9, smallSender_min, smallSender_max, smallSender_mps⟩

theorem leLink_starves :
    Sdu.sendSdu smallSender ⟨fun _ => some 100, fun _ => true⟩ 2
        ⟨[⟨9, [7]⟩, ⟨0, [8]⟩, ⟨0, [9]⟩], 0⟩ =
      .again 0 [[3, 0, 7], [8]] ⟨[⟨0, [9]⟩], 2⟩ ∧
    (leLinkMachine smallChannel).Along (LeLink.Conforming smallChannel)
      (.start smallChannel) threeFrames ∧
    ((leLinkMachine smallChannel).run (.start smallChannel)
      threeFrames).Starved := by
  have ready : LeRx.Supplied smallChannel readyRecv := ⟨rfl, by decide, rfl⟩
  refine ⟨by decide, ?_, ⟨⟨rfl, rfl⟩, rfl, rfl, rfl, rfl⟩⟩
  exact ⟨⟨by decide, by decide, by decide⟩, ready, ready, trivial,
    ⟨by decide, by decide, by decide⟩, ready, ready, trivial⟩

end ZephyrBluetooth.Host
