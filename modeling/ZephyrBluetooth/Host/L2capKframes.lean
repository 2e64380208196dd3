import ZephyrBluetooth.Host.L2capTxKept
import ZephyrBluetooth.Host.L2capRetry

namespace ZephyrBluetooth.Host

open Data L2cap LeTx List Function

variable {released : List SendBuf} {call : SduDue} {state : SduSending}

/-! The K-frames of the SDUs that are sent on the channels of a connection,
while the peer's commands set the MTU, MPS and credits of the channels. -/

structure LeSenderConfig where
  l2cap : L2capConfig
  reserve : Nat
  reserve_min : 8 ≤ reserve

/-- The SDU of each channel.  `led` is no field of the source: the K-frame with
the length of the SDU went out. -/
structure LeSender where
  conn : L2capConn
  sdu : Nat → SduSending
  led : Nat → Bool

/-- A command or another step of the connection, a new SDU, and a try to send
the next segment of one. -/
inductive LeSenderInput where
  | link (env : L2capEnv) (input : L2capInput)
  | accept (address : Nat) (chain : List SendBuf)
  | attempt (address : Nat) (room : Option Nat) (send : ConnSend)

namespace LeSender

def start (conn : L2capConn) : LeSender where
  conn
  sdu _ := ⟨.done, []⟩
  led _ := false

variable (config : LeSenderConfig) (sender : LeSender)

/-- `BT_L2CAP_LE_CHAN` of a channel object whose `conn` is set. -/
def Sends (address : Nat) : Prop :=
  sender.conn.halted = false ∧ address ∉ fixedCids ∧
    (sender.conn.chan address).attached = true

instance (address : Nat) : Decidable (sender.Sends address) :=
  inferInstanceAs (Decidable (_ ∧ _ ∧ _))

def txConf (address : Nat) : LeTxConf where
  mtu := (sender.conn.chan address).tx.mtu
  mps := (sender.conn.chan address).tx.mps % 2 ^ 16
  cid := (sender.conn.chan address).tx.cid
  reserve := config.reserve
  mps_lt := Nat.mod_lt _ (Nat.two_pow_pos 16)
  reserve_min := config.reserve_min

def answers (address : Nat) (room : Option Nat) (send : ConnSend) :
    SegAnswers :=
  ⟨(sender.conn.chan address).tx.credits, room, send⟩

def dueAt (address : Nat) : Option (List SendBuf × SduDue) :=
  due (sender.txConf config address) (sender.sdu address)

def Free (address : Nat) : Prop :=
  match (sender.sdu address).place with
  | .parked _ sent => sent = 0
  | .looping _ _ _ => False
  | _ => True

instance decidableFree (address : Nat) : Decidable (sender.Free address) := by
  unfold Free
  split <;> infer_instance

/-- `bt_l2cap_chan_del` drops what is queued. -/
def onLink (env : L2capEnv) (input : L2capInput) : LeSender :=
  let conn := (l2capMachine config.l2cap).next sender.conn (env, input)
  { sender with
    conn
    sdu := fun address =>
      if (conn.chan address).attached then sender.sdu address else ⟨.done, []⟩ }

def onAccept (address : Nat) (chain : List SendBuf) : LeSender :=
  if sender.Sends address ∧ sender.Free address then
    { sender with
      sdu := update sender.sdu address (.start chain)
      led := update sender.led address false }
  else sender

def isSent : LeSent → Bool
  | .sent _ _ => true
  | _ => false

def onAttempt (address : Nat) (room : Option Nat) (send : ConnSend) :
    LeSender × List (Nat × List Byte) :=
  if sender.Sends address then
    let conf := sender.txConf config address
    let answers := sender.answers address room send
    let (sending, frames) := sendStep conf (sender.sdu address) answers
    match sender.dueAt config address with
    | none => ({ sender with sdu := update sender.sdu address sending }, [])
    | some (_, call) =>
      let (result, credits, _) := SduDue.send conf call answers
      ({ conn := sender.conn.set address fun chan =>
          { chan with tx := { chan.tx with credits } }
         sdu := update sender.sdu address sending
         led := update sender.led address
          (sender.led address || call.hdrLen ≠ 0 && isSent result) },
        frames.map fun frame => (address, frame))
  else (sender, [])

def step : LeSenderInput → LeSender × List (Nat × List Byte)
  | .link env input => (sender.onLink config env input, [])
  | .accept address chain => (sender.onAccept address chain, [])
  | .attempt address room send => sender.onAttempt config address room send

end LeSender

def leSenderMachine (config : LeSenderConfig) :
    Machine LeSender LeSenderInput (Nat × List Byte) where
  step sender input := sender.step config input

namespace LeSender

variable (config : LeSenderConfig) (sender : LeSender)

/-- `tx.mps - sdu_hdr_len` does not wrap, and the segment, its SDU length
included, is at most `tx.mps` bytes long. -/
structure SegFits (address : Nat) (room : Option Nat) (call : SduDue) :
    Prop where
  noWrap : call.hdrLen ≤ (sender.conn.chan address).tx.mps
  fits : ∀ seg left, createSeg (sender.txConf config address) room call.frag
      (fragsLen call.rest) call.rest.isEmpty call.hdrLen = some (seg, left) →
    (segBytes left seg).length ≤ (sender.conn.chan address).tx.mps

def AttemptFits : LeSenderInput → Prop
  | .attempt address room _ =>
    sender.Sends address → (sender.conn.chan address).tx.credits ≠ 0 →
      ∀ released call, sender.dueAt config address = some (released, call) →
        sender.SegFits config address room call
  | _ => True

def OneHeader : Prop :=
  ∀ address, sender.led address = true →
    ∀ released call, sender.dueAt config address = some (released, call) →
      call.hdrLen = 0

def Leads (chain : List SendBuf) : Prop :=
  match skipHead chain with
  | [] => True
  | frag :: rest => frag.data ≠ [] ∨ fragsLen rest = 0

/-- The peer's responses and credits leave room for data behind the SDU length,
and so do the segment buffers; an SDU does not begin with two empty buffers. -/
def Spared : LeSenderInput → Prop
  | .link _ input => sender.conn.InputRoomy input
  | .accept _ chain => Leads chain
  | .attempt address room _ =>
    ∀ released call, sender.dueAt config address = some (released, call) →
      call.hdrLen ≠ 0 → ∀ tailroom, room = some tailroom → sduHdrSize < tailroom

end LeSender

namespace LeTx

variable {conf : LeTxConf}

theorem sizeDiff_eq {minuend subtrahend : Nat} (small : minuend < 2 ^ 32)
    (fits : subtrahend ≤ minuend) :
    sizeDiff minuend subtrahend = minuend - subtrahend := by
  unfold sizeDiff
  omega

theorem segLen_pos {tailroom dataLen : Nat} (filled : 0 < dataLen)
    (wide : sduHdrSize < conf.mps) (room : sduHdrSize < tailroom) :
    0 < segLen conf tailroom sduHdrSize dataLen := by
  have bound := conf.mps_lt
  have exact_sub := @sizeDiff_eq conf.mps sduHdrSize (by omega) wide.le
  unfold segLen
  rw [exact_sub]
  unfold sduHdrSize at *
  omega

theorem createSeg_fits {room : Option Nat} {buf left : SendBuf} {restLen : Nat}
    {last : Bool} {hdrLen : Nat} {seg : Seg}
    (valid : hdrLen = 0 ∨ hdrLen = sduHdrSize) (fits : hdrLen ≤ conf.mps)
    (created : createSeg conf room buf restLen last hdrLen = some (seg, left)) :
    (segBytes left seg).length ≤ conf.mps := by
  have header := length_sduHdr valid buf restLen
  have bound := conf.mps_lt
  unfold createSeg at created
  split at created
  · rename_i whole
    cases created
    have length := whole.1
    simp only [segBytes, SendBuf.addRef, SendBuf.push, length_append, header]
    omega
  · cases room with
    | none => cases created
    | some tailroom =>
      cases created
      have exact_sub := @sizeDiff_eq conf.mps hdrLen (by omega) fits
      have taken : segLen conf tailroom hdrLen buf.data.length ≤
          conf.mps - hdrLen := by
        unfold segLen
        rw [exact_sub]
        omega
      simp only [segBytes, length_append, header, length_take]
      omega

theorem leSend_again_data {answers : SegAnswers} {buf : SendBuf} {restLen : Nat}
    {last : Bool} {hdrLen : Nat} (valid : hdrLen = 0 ∨ hdrLen = sduHdrSize)
    (again : (leSend conf answers buf restLen last hdrLen).1 = .again) :
    (leSend conf answers buf restLen last hdrLen).2.2.data = buf.data := by
  by_cases fails : FailsWhole conf answers buf last hdrLen
  · exact (leSend_whole fails restLen valid).2.1
  · rw [leSend_again fails again]

theorem loopDue_some {after chain : List SendBuf} {sent total : Nat}
    (next : loopDue released chain sent total = some (after, call)) :
    call.sent = sent ∧ call.hdrLen = 0 := by
  unfold loopDue at next
  split at next
  · cases next
  split at next
  · split at next
    · cases next
    · cases next
      exact ⟨rfl, rfl⟩
  · cases next
    exact ⟨rfl, rfl⟩

inductive DueCase (state : SduSending) (call : SduDue) : Prop where
  | first (chain : List SendBuf) (place : state.place = .parked chain 0)
      (begins : skipHead chain = call.frag :: call.rest)
      (total : call.total = fragsLen chain) (sent : call.sent = 0)
      (header : call.hdrLen = sduHdrSize)
  | resumed (chain : List SendBuf) (place : state.place = .parked chain call.sent)
      (sent : call.sent ≠ 0) (header : call.hdrLen = 0)
  | behind (chain : List SendBuf) (total : Nat)
      (place : state.place = .looping chain call.sent total)
      (header : call.hdrLen = 0)

theorem due_cases (next : due conf state = some (released, call)) :
    DueCase state call := by
  unfold due at next
  cases place : state.place with
  | parked chain sent =>
    simp only [place] at next
    split at next
    · cases next
    split at next
    · rename_i begins
      subst begins
      split at next
      · cases next
      rename_i frag rest skipped
      cases next
      exact .first chain place skipped rfl rfl rfl
    · rename_i goesOn
      obtain ⟨same, header⟩ := loopDue_some next
      rw [← same] at place goesOn
      exact .resumed chain place goesOn header
  | looping chain sent total =>
    simp only [place] at next
    obtain ⟨same, header⟩ := loopDue_some next
    rw [← same] at place
    exact .behind chain total place header
  | done =>
    simp only [place] at next
    cases next
  | dropped =>
    simp only [place] at next
    cases next

theorem DueCase.valid (dueCase : DueCase state call) :
    call.hdrLen = 0 ∨ call.hdrLen = sduHdrSize := by
  cases dueCase with
  | first _ _ _ _ _ header => exact .inr header
  | resumed _ _ _ header => exact .inl header
  | behind _ _ _ header => exact .inl header

theorem fragsLen_skipHead (chain : List SendBuf) :
    fragsLen (skipHead chain) = fragsLen chain := by
  unfold skipHead
  split
  · split
    · rename_i frag next rest empty
      rw [fragsLen_cons frag, empty, length_nil, zero_add]
    · rfl
  · rfl

end LeTx

namespace LeSender

open LeTx

def SduLed (state : SduSending) (led : Bool) : Prop :=
  match state.place with
  | .parked chain sent => sent ≠ 0 ∨ led = false ∧ Leads chain
  | .looping _ sent _ => sent ≠ 0
  | _ => True

variable {conf : LeTxConf}

theorem SduLed.header (sduLed : SduLed state true)
    (next : due conf state = some (released, call)) : call.hdrLen = 0 := by
  cases due_cases next with
  | first chain place =>
    unfold SduLed at sduLed
    rw [place] at sduLed
    rcases sduLed with impossible | ⟨impossible, _⟩
    · exact absurd rfl impossible
    · cases impossible
  | resumed _ _ _ header => exact header
  | behind _ _ _ header => exact header

structure Begins (led : Bool) (call : SduDue) : Prop where
  sent : call.sent = 0
  header : call.hdrLen = sduHdrSize
  notLed : led = false
  leads : call.frag.data ≠ [] ∨ fragsLen call.rest = 0
  total : call.total = call.frag.data.length + fragsLen call.rest

variable {led : Bool}

theorem SduLed.begins (sduLed : SduLed state led)
    (next : due conf state = some (released, call)) :
    Begins led call ∨ call.sent ≠ 0 ∧ call.hdrLen = 0 := by
  unfold SduLed at sduLed
  cases due_cases next with
  | first chain place skipped total sent header =>
    rw [place] at sduLed
    have rest := sduLed.resolve_left (not_not_intro rfl)
    refine .inl ⟨sent, header, rest.1, ?_, ?_⟩
    · have leads := rest.2
      unfold Leads at leads
      rw [skipped] at leads
      exact leads
    · rw [total, ← fragsLen_skipHead, skipped, fragsLen_cons]
  | resumed _ _ sent header => exact .inr ⟨sent, header⟩
  | behind _ _ place header =>
    rw [place] at sduLed
    exact .inr ⟨sduLed, header⟩

theorem leads_again {frag : SendBuf} {rest : List SendBuf}
    (leads : frag.data ≠ [] ∨ fragsLen rest = 0) : Leads (frag :: rest) := by
  rcases leads with filled | nothing
  · unfold Leads
    rw [skipHead_filled (.inl filled)]
    exact .inl filled
  · cases rest with
    | nil => exact .inr nothing
    | cons next more =>
      unfold Leads
      simp only [skipHead]
      split
      · rename_i skipped
        split at skipped
        · cases skipped
        · cases skipped
      · rename_i head tail skipped
        rw [fragsLen_cons] at nothing
        split at skipped
        · cases skipped
          exact .inr (by omega)
        rename_i filled
        cases skipped
        exact .inl filled

variable {answers : SegAnswers}

theorem Begins.goesOn (begins : Begins led call)
    {len credits : Nat} {frame : List Byte} {left : SendBuf}
    (sends : SduDue.send conf call answers = (.sent len frame, credits, left))
    (wide : sduHdrSize < conf.mps)
    (room : ∀ tailroom, answers.room = some tailroom → sduHdrSize < tailroom) :
    call.total ≤ call.sent + len ∨ call.sent + len ≠ 0 := by
  have total := begins.total
  obtain ⟨_, outcome⟩ := leSend_sent (.inr begins.header) sends
  rcases outcome with ⟨last, _⟩ | ⟨tailroom, given, taken, _⟩
  · have alone : call.rest = [] := isEmpty_iff.mp last
    rw [alone] at total
    simp only [fragsLen, map_nil, sum_nil] at total
    exact .inl (by omega)
  · by_cases filled : call.frag.data = []
    · have nothing := begins.leads.resolve_left (not_not_intro filled)
      rw [filled, length_nil] at total
      exact .inl (by omega)
    · have some := @segLen_pos conf tailroom call.frag.data.length
        (length_pos_iff.mpr filled) wide (room tailroom given)
      rw [begins.header] at taken
      exact .inr (by omega)

theorem sduLed_attempt (sduLed : SduLed state led)
    (next : due conf state = some (released, call))
    (wide : answers.credits ≠ 0 → sduHdrSize < conf.mps)
    (room : call.hdrLen ≠ 0 → ∀ tailroom, answers.room = some tailroom →
      sduHdrSize < tailroom) :
    SduLed (attempt conf released call answers).1 (led || call.hdrLen ≠ 0 &&
        isSent (SduDue.send conf call answers).1) := by
  have valid := (due_cases next).valid
  unfold attempt
  split
  · rename_i credits frag again
    have kept : frag.data = call.frag.data := by
      have data := @leSend_again_data conf answers call.frag
        (fragsLen call.rest) call.rest.isEmpty call.hdrLen valid
        (congrArg Prod.fst again)
      have left := congrArg (fun result => result.2.2) again
      simp only [SduDue.send] at left
      rw [← data, left]
    rw [again]
    simp only [isSent, Bool.and_false, Bool.or_false, SduLed]
    rcases sduLed.begins next with begins | ⟨sent, _⟩
    · refine .inr ⟨begins.notLed, leads_again ?_⟩
      rw [kept]
      exact begins.leads
    · exact .inl sent
  · trivial
  · rename_i len frame credits left sends
    have credit : answers.credits ≠ 0 := by
      intro none
      simp only [SduDue.send, leSend, if_pos none] at sends
      cases sends
    have goesOn : call.total ≤ call.sent + len ∨ call.sent + len ≠ 0 := by
      rcases sduLed.begins next with begins | ⟨sent, _⟩
      · have leads : call.hdrLen ≠ 0 := by
          rw [begins.header]
          decide
        exact begins.goesOn sends (wide credit) (room leads)
      · exact .inr (by omega)
    simp only [settle]
    split
    · trivial
    · rename_i more
      exact goesOn.resolve_left more

structure Inv (sender : LeSender) : Prop where
  roomy : sender.conn.Roomy
  sdu : ∀ address, SduLed (sender.sdu address) (sender.led address)

variable {config : LeSenderConfig} {sender : LeSender} {address : Nat}

section

variable (inv : sender.Inv)
include inv

theorem Inv.mps (sends : sender.Sends address) :
    (sender.txConf config address).mps = (sender.conn.chan address).tx.mps :=
  Nat.mod_eq_of_lt (inv.roomy address sends.2.1 sends.2.2).small

theorem Inv.wide (sends : sender.Sends address)
    (credit : (sender.conn.chan address).tx.credits ≠ 0) :
    sduHdrSize < (sender.conn.chan address).tx.mps :=
  (inv.roomy address sends.2.1 sends.2.2).wide.resolve_left credit

theorem Inv.fits (input : LeSenderInput) : sender.AttemptFits config input := by
  cases input with
  | link => trivial
  | accept => trivial
  | attempt address room send =>
    intro sends credit released call next
    have valid := (due_cases next).valid
    have wide := inv.wide sends credit
    have noWrap : call.hdrLen ≤ (sender.conn.chan address).tx.mps := by
      rcases valid with header | header
      · rw [header]
        exact Nat.zero_le _
      · rw [header]
        exact wide.le
    refine ⟨noWrap, ?_⟩
    intro seg left created
    rw [← inv.mps sends] at noWrap ⊢
    exact createSeg_fits valid noWrap created

theorem Inv.oneHeader : sender.OneHeader config := by
  intro address led released call next
  have sduLed := inv.sdu address
  rw [led] at sduLed
  exact sduLed.header next

theorem Inv.onLink (env : L2capEnv) {input : L2capInput}
    (roomy : sender.conn.InputRoomy input) :
    (sender.onLink config env input).Inv := by
  constructor
  · change ((l2capMachine config.l2cap).next sender.conn (env, input)).Roomy
    unfold Machine.next l2capMachine
    simp only
    split
    · exact inv.roomy
    · exact inv.roomy.step config.l2cap env roomy
  · intro address
    simp only [LeSender.onLink]
    split
    · exact inv.sdu address
    · trivial

theorem Inv.onAccept (address : Nat) {chain : List SendBuf}
    (leads : Leads chain) : (sender.onAccept address chain).Inv := by
  unfold LeSender.onAccept
  split
  · refine ⟨inv.roomy, ?_⟩
    intro other
    by_cases same : other = address
    · subst same
      simp only [update_self]
      exact .inr ⟨rfl, leads⟩
    · simp only [update_of_ne same]
      exact inv.sdu other
  · exact inv

theorem Inv.spend (sends : sender.Sends address) {credits : Nat}
    (spent : (sender.conn.chan address).tx.credits = 0 → credits = 0) :
    (sender.conn.set address fun chan =>
      { chan with tx := { chan.tx with credits } }).Roomy := by
  have chan := inv.roomy address sends.2.1 sends.2.2
  exact inv.roomy.set fun _ _ => ⟨chan.small, chan.wide.imp_left spent⟩

end

theorem leSend_no_credits (none : answers.credits = 0) (call : SduDue) :
    (SduDue.send conf call answers).2.1 = 0 := by
  simp only [SduDue.send, leSend, if_pos none]

theorem Inv.onAttempt (inv : sender.Inv) (address : Nat) {room : Option Nat}
    (send : ConnSend)
    (spared : sender.Spared config (.attempt address room send)) :
    (sender.onAttempt config address room send).1.Inv := by
  unfold LeSender.onAttempt
  split
  · rename_i sends
    simp only
    cases next : sender.dueAt config address with
    | none =>
      refine ⟨inv.roomy, ?_⟩
      intro other
      by_cases same : other = address
      · subst same
        have idle : due (sender.txConf config other) (sender.sdu other) = none :=
          next
        simp only [update_self, sendStep, idle, SduLed]
        split
        · rename_i place
          split at place <;> cases place
        · rename_i place
          split at place <;> cases place
        · trivial
      · simp only [update_of_ne same]
        exact inv.sdu other
    | some found =>
      obtain ⟨released, call⟩ := found
      have header : due (sender.txConf config address) (sender.sdu address) =
        some (released, call) := next
      refine ⟨inv.spend sends fun none => leSend_no_credits none call, ?_⟩
      intro other
      by_cases same : other = address
      · subst same
        simp only [update_self, sendStep, header]
        apply sduLed_attempt (inv.sdu other) header
        · intro credit
          rw [inv.mps sends]
          exact inv.wide sends credit
        · exact spared released call next
      · simp only [update_of_ne same]
        exact inv.sdu other
  · exact inv

theorem Inv.step (inv : sender.Inv) (input : LeSenderInput)
    (spared : sender.Spared config input) :
    ((leSenderMachine config).next sender input).Inv := by
  cases input with
  | link env => exact inv.onLink env spared
  | accept address => exact inv.onAccept address spared
  | attempt address room send => exact inv.onAttempt address send spared

theorem start_inv (servers : List L2capServer) (accepts : Nat → Bool) :
    (LeSender.start (.start servers accepts)).Inv :=
  ⟨L2capConn.start_roomy servers accepts, fun _ => trivial⟩

end LeSender

/-- As long as responses that open channels, credits and segment buffers leave
room for data behind the SDU length, segments respect the MPS and the SDU length
goes out once. -/
theorem kframes_fit (config : LeSenderConfig) (servers : List L2capServer)
    (accepts : Nat → Bool) (inputs : List LeSenderInput)
    (spared : (leSenderMachine config).Along (LeSender.Spared config)
      (.start (.start servers accepts)) inputs) :
    (leSenderMachine config).Along (LeSender.AttemptFits config)
        (.start (.start servers accepts)) inputs ∧
      (leSenderMachine config).Always (LeSender.OneHeader config)
        (.start (.start servers accepts)) inputs := by
  have start := LeSender.start_inv servers accepts
  constructor
  · exact Machine.along_of_along
      (fun _ input inv spared => ⟨inv.fits input, inv.step input spared⟩) start
      spared
  · exact (Machine.always_of_along
      (fun _ input inv spared => inv.step input spared) start spared).mono
      fun _ inv => inv.oneHeader

def sampleSenderConfig : LeSenderConfig := ⟨sampleConfig, 8, le_rfl⟩

def openedWith (mps len : Nat) : List LeSenderInput :=
  [.link sampleEnv (.connect 10 0x80),
    .link sampleEnv (.signal 1 (.leConnRsp 0x40 64 mps 5 0)),
    .accept 10 [⟨[], List.replicate len 7, 1⟩]]

theorem kframes_fit_two :
    let inputs := openedWith 23 30 ++ [.attempt 10 (some 50) .ok,
      .attempt 10 none .ok, .attempt 10 (some 50) .ok]
    (leSenderMachine sampleSenderConfig).Along
        (LeSender.AttemptFits sampleSenderConfig)
        (.start (.start [] fun _ => true)) inputs ∧
      (leSenderMachine sampleSenderConfig).Always
        (LeSender.OneHeader sampleSenderConfig)
        (.start (.start [] fun _ => true)) inputs := by
  intro inputs
  apply kframes_fit
  refine ⟨trivial, ⟨by decide, fun _ _ => by decide⟩, .inl (by decide), ?_, ?_,
    ?_, trivial⟩
  · intro released call next header tailroom given
    cases given
    decide
  · intro released call next header tailroom given
    cases given
  · intro released call next header tailroom given
    cases given
    decide

theorem kframes_narrow : (¬ (leSenderMachine sampleSenderConfig).Along
      (LeSender.AttemptFits sampleSenderConfig) (.start (.start [] fun _ => true))
      (openedWith 1 10 ++ [.attempt 10 (some 50) .ok])) ∧
    ¬ (leSenderMachine sampleSenderConfig).Always
      (LeSender.OneHeader sampleSenderConfig) (.start (.start [] fun _ => true))
      (openedWith 2 10 ++ [.attempt 10 (some 50) .ok, .attempt 10 none .ok]) := by
  constructor
  · intro along
    have fits := along.append_last.2
    have noWrap := (fits (by decide) (by decide) _ _ rfl).noWrap
    exact absurd noWrap (by decide)
  · intro always
    have header : (((leSenderMachine sampleSenderConfig).run
        (.start (.start [] fun _ => true)) (openedWith 2 10 ++
          [.attempt 10 (some 50) .ok, .attempt 10 none .ok])).dueAt
        sampleSenderConfig 10).map (fun next => next.2.hdrLen) = some 2 := by
      decide +kernel
    obtain ⟨⟨released, call⟩, next, second⟩ := Option.map_eq_some_iff.mp header
    have resumed := always.last 10 (by decide +kernel) released call next
    exact absurd (second.symm.trans resumed) (by decide)

end ZephyrBluetooth.Host
