import ZephyrBluetooth.Data.Machine
import ZephyrBluetooth.Mesh.Net

namespace ZephyrBluetooth.Mesh

open Bool Data List Option

variable {rpl : Rpl} {ivIndex : Nat} {list : List Rpl}

structure MessageId where
  src : Nat
  iv : Nat
  seq : Nat
  deriving DecidableEq

variable {message : MessageId}

inductive ReplayInput where
  | recv (rx : NetRx)
  | ivUpdate (ivIndex : UInt32) (ivUpdate txInProgress : Bool)
  | ivuRefresh (txInProgress : Bool)
  | ivUpdateTest (enable : Bool)

def replayStep (cfg : Config) (net : Net) :
    ReplayInput → Net × List MessageId
  | .recv rx =>
    let outcome := rplCheck cfg net.rpl rx false
    ({ net with rpl := outcome.2 }, if checked rx && !outcome.1.replay then
        [⟨rx.addr, netIviRx net.ivIndex rx, rx.seq⟩]
      else
        [])
  | .ivUpdate ivIndex ivUpdate txInProgress =>
    ((netIvUpdate cfg net ivIndex.toNat ivUpdate txInProgress).2, [])
  | .ivuRefresh txInProgress => (ivuRefresh cfg net txInProgress, [])
  | .ivUpdateTest enable => (ivUpdateTest net enable, [])

def replayMachine (cfg : Config) : Machine Net ReplayInput MessageId where
  step := replayStep cfg

/-- An entry of the source stands behind an empty slot, where the scan of
`bt_mesh_rpl_check` does not look. -/
def behindEmpty (src : Nat) (list : List Rpl) : Bool :=
  (list.dropWhile fun rpl => rpl.src != 0).any fun rpl => rpl.src == src

/-- The message is judged by the entry of its source, and its IV index does not
wrap below zero. -/
def Judged (net : Net) : ReplayInput → Prop
  | .recv rx =>
    behindEmpty rx.addr net.rpl.list = false ∧ (rx.oldIv = true → net.ivIndex ≠ 0)
  | _ => True

instance (net : Net) : DecidablePred (Judged net)
  | .recv _ => inferInstanceAs (Decidable (_ ∧ _))
  | .ivUpdate _ _ _ => inferInstanceAs (Decidable True)
  | .ivuRefresh _ => inferInstanceAs (Decidable True)
  | .ivUpdateTest _ => inferInstanceAs (Decidable True)

/-! The scan finds the first entry of a source unless it is behind an empty
slot. -/

def entryOf (src : Nat) (list : List Rpl) : Option Rpl :=
  list.find? fun rpl => rpl.src == src

variable {src : Nat}

theorem entryOf_cons_eq {rest : List Rpl} (same : rpl.src = src) :
    entryOf src (rpl :: rest) = some rpl := by
  simp [entryOf, same]

theorem entryOf_cons_ne {rest : List Rpl} (different : rpl.src ≠ src) :
    entryOf src (rpl :: rest) = entryOf src rest := by
  simp [entryOf, different]

def Admits (rpl : Rpl) (rx : NetRx) : Prop :=
  (rx.oldIv = false ∧ rpl.oldIv = true) ∨ (rx.oldIv = rpl.oldIv ∧ rpl.seq < rx.seq)

variable {rx : NetRx}

theorem admits_of_scan (notOlder : (rx.oldIv && !rpl.oldIv) = false)
    (newer : ((!rx.oldIv && rpl.oldIv) || decide (rpl.seq < rx.seq)) = true) :
    Admits rpl rx := by
  unfold Admits
  cases hrx : rx.oldIv <;> cases hrpl : rpl.oldIv <;> simp_all

structure Recorded (rx : NetRx) (list updated : List Rpl) : Prop where
  entry : ∃ rpl : Rpl, entryOf rx.addr updated = some (rpl.update rx)
  others : ∀ src, src ≠ rx.addr → src ≠ 0 → entryOf src updated = entryOf src list
  admits : ∀ rpl, entryOf rx.addr list = some rpl → Admits rpl rx

theorem rplScan_recorded :
    ∀ {list : List Rpl} {slot : Nat}, rplScan rx list = some slot →
      behindEmpty rx.addr list = false →
      ∃ rpl, list[slot]? = some rpl ∧
        Recorded rx list (list.set slot (rpl.update rx))
  | [], slot, scan, _ => by simp [rplScan] at scan
  | rpl :: rest, slot, scan, visible => by
      have updateSrc := rpl.update_src rx
      by_cases isEmpty : rpl.src = 0
      · have slotEq : slot = 0 := by
          simpa [rplScan, isEmpty, eq_comm] using scan
        subst slotEq
        have notZero := rx.addr_ne_zero
        have absent : entryOf rx.addr (rpl :: rest) = none := by
          simpa [behindEmpty, isEmpty, entryOf, find?_eq_none] using visible
        refine ⟨rpl, rfl, ⟨⟨rpl, entryOf_cons_eq updateSrc⟩, ?_, ?_⟩⟩
        · intro src different nonzero
          rw [set_cons_zero, entryOf_cons_ne (by rw [updateSrc]; exact Ne.symm different),
            entryOf_cons_ne (by rw [isEmpty]; exact Ne.symm nonzero)]
        · intro entry found
          rw [absent] at found
          cases found
      · by_cases same : rpl.src = rx.addr
        · simp only [rplScan, if_neg isEmpty, if_pos same] at scan
          split at scan
          · cases scan
          next notOlder =>
            split at scan
            next newer =>
              have slotEq : slot = 0 := (some.inj scan).symm
              subst slotEq
              refine ⟨rpl, rfl, ⟨⟨rpl, entryOf_cons_eq updateSrc⟩, ?_, ?_⟩⟩
              · intro src different _
                rw [set_cons_zero,
                  entryOf_cons_ne (by rw [updateSrc]; exact Ne.symm different),
                  entryOf_cons_ne (by rw [same]; exact Ne.symm different)]
              · intro entry found
                rw [entryOf_cons_eq same] at found
                cases found
                exact admits_of_scan (by simpa using notOlder) newer
            · cases scan
        · simp only [rplScan, if_neg isEmpty, if_neg same,
            map_eq_some_iff] at scan
          obtain ⟨_, innerScan, rfl⟩ := scan
          have innerVisible : behindEmpty rx.addr rest = false := by
            simpa [behindEmpty, isEmpty] using visible
          obtain ⟨stored, storedAt, recorded⟩ :=
            rplScan_recorded innerScan innerVisible
          refine ⟨stored, by simpa using storedAt, ⟨?_, ?_, ?_⟩⟩
          · obtain ⟨entry, found⟩ := recorded.entry
            exact ⟨entry, by rw [set_cons_succ, entryOf_cons_ne same, found]⟩
          · intro src different nonzero
            rw [set_cons_succ]
            by_cases owns : rpl.src = src
            · rw [entryOf_cons_eq owns, entryOf_cons_eq owns]
            · rw [entryOf_cons_ne owns, entryOf_cons_ne owns]
              exact recorded.others src different nonzero
          · intro entry found
            rw [entryOf_cons_ne same] at found
            exact recorded.admits entry found

def Outdated (ivIndex : Nat) (rpl : Rpl) (message : MessageId) : Prop :=
  message.iv + rpl.oldIv.toNat < ivIndex ∨
    (message.iv + rpl.oldIv.toNat = ivIndex ∧ message.seq ≤ rpl.seq)

/-- The message can never be accepted again: its IV index is out of reach, or
the entry of its source rules it out. -/
def Spent (ivIndex : Nat) (list : List Rpl) (message : MessageId) : Prop :=
  message.src ≠ 0 ∧ (message.iv + 1 < ivIndex ∨
      ∃ rpl, entryOf message.src list = some rpl ∧ Outdated ivIndex rpl message)

theorem Spent.iv_le (spent : Spent ivIndex list message) : message.iv ≤ ivIndex := by
  obtain ⟨_, below | ⟨_, _, below | ⟨_, _⟩⟩⟩ := spent <;> omega

theorem Spent.jump {newIndex : Nat} (advance : ivIndex ≤ newIndex)
    (spent : Spent ivIndex list message) : Spent newIndex list message := by
  obtain ⟨nonzero, _ | ⟨rpl, found, outdated⟩⟩ := spent
  · exact ⟨nonzero, .inl (by omega)⟩
  refine ⟨nonzero, .inr ⟨rpl, found, ?_⟩⟩
  unfold Outdated at outdated ⊢
  omega

theorem entryOf_map_age (nonzero : src ≠ 0)
    (found : entryOf src list = some rpl) (fresh : rpl.oldIv = false) :
    entryOf src (list.map Rpl.age) = some { rpl with oldIv := true } := by
  induction list with
  | nil => cases found
  | cons head rest ih =>
    by_cases same : head.src = src
    · rw [entryOf_cons_eq same] at found
      obtain rfl := some.inj found
      have aged : head.age = { head with oldIv := true } := by
        simp [Rpl.age, same, nonzero, fresh]
      rw [map_cons, aged]
      exact entryOf_cons_eq same
    · rw [entryOf_cons_ne same] at found
      have agedSrc : head.age.src ≠ src := by
        unfold Rpl.age
        split
        · exact same
        split
        · exact Ne.symm nonzero
        · exact same
      rw [map_cons, entryOf_cons_ne agedSrc]
      exact ih found

theorem Spent.age {newIndex : Nat} (advance : ivIndex < newIndex)
    (spent : Spent ivIndex list message) :
    Spent newIndex (list.map Rpl.age) message := by
  obtain ⟨nonzero, _ | ⟨rpl, found, outdated⟩⟩ := spent
  · exact ⟨nonzero, .inl (by omega)⟩
  cases old : rpl.oldIv with
  | true =>
    refine ⟨nonzero, .inl ?_⟩
    simp only [Outdated, old, toNat_true] at outdated
    omega
  | false =>
    refine ⟨nonzero, .inr ⟨_, entryOf_map_age nonzero found old, ?_⟩⟩
    simp only [Outdated, old, toNat_false, toNat_true] at outdated ⊢
    omega

theorem spent_ivUpdate {cfg : Config} {net updated : Net} {ivUpdate : Bool}
    (effect : IvUpdateEffect cfg net ivIndex ivUpdate updated)
    (spent : Spent net.ivIndex net.rpl.list message) :
    Spent updated.ivIndex updated.rpl.list message := by
  cases effect with
  | unchanged => exact spent
  | deferred => exact spent
  | leave => simpa using spent
  | enter =>
    simp only [doUpdate_ivIndex, doUpdate_rpl, if_true, rplReset_list]
    exact spent.age (by omega)
  | recover recovery =>
    have ahead := recovery.2.1
    -- The entries survive the deferred clear and are then at most too strict.
    simp only [doUpdate_ivIndex, doUpdate_rpl, recovered, ite_self]
    cases settings : cfg.settings with
    | false => exact ⟨spent.1, .inl (by have := spent.iv_le; omega)⟩
    | true =>
      cases ivUpdate with
      | false => simpa [rplClear_list, settings] using spent.jump (by omega)
      | true =>
        simp only [if_true, rplReset_list, rplClear_list, settings]
        exact spent.age (by omega)

theorem replayStep_effect (cfg : Config) (net : Net)
    (current : net.ivIndex < 2 ^ 32) (input : ReplayInput)
    (quiet : ∀ rx, input ≠ .recv rx) : (replayStep cfg net input).2 = [] ∧
    ∃ before ivIndex flag, before.ivIndex = net.ivIndex ∧ before.rpl = net.rpl ∧
      IvUpdateEffect cfg before ivIndex flag (replayStep cfg net input).1 := by
  cases input with
  | recv rx => exact absurd rfl (quiet rx)
  | ivUpdate ivIndex ivUpdate =>
    exact ⟨rfl, net, ivIndex.toNat, ivUpdate, rfl, rfl,
      netIvUpdate_effect cfg net _ _ _ current ivIndex.toNat_lt⟩
  | ivuRefresh txInProgress =>
    obtain ⟨duration, pending, effect⟩ :=
      ivuRefresh_effect cfg net txInProgress current
    let aged : Net :=
      { net with ivuDuration := duration, ivPending := pending }
    exact ⟨rfl, aged, net.ivIndex, false, rfl, rfl, effect⟩
  | ivUpdateTest enable =>
    exact ⟨rfl, ivUpdateTest net enable, 0, false, rfl, rfl, .unchanged⟩

theorem recv_cases (cfg : Config) {net : Net}
    (current : net.ivIndex < 2 ^ 32) (judged : Judged net (.recv rx)) :
    ((replayStep cfg net (.recv rx)).2 = [] ∧
      (replayStep cfg net (.recv rx)).1.rpl.list = net.rpl.list) ∨
    ∃ message, (replayStep cfg net (.recv rx)).2 = [message] ∧
      ¬ Spent net.ivIndex net.rpl.list message ∧
      Spent net.ivIndex (replayStep cfg net (.recv rx)).1.rpl.list message ∧
      ∀ old, Spent net.ivIndex net.rpl.list old →
        Spent net.ivIndex (replayStep cfg net (.recv rx)).1.rpl.list old := by
  cases consulted : checked rx with
  | false =>
    left
    simp [replayStep, rplCheck_unchecked consulted, consulted]
  | true =>
    rcases rplCheck_checked cfg net.rpl consulted with
      ⟨outcome, _⟩ | ⟨slot, scan, outcome⟩
    · left
      simp [replayStep, outcome]
    right
    obtain ⟨_, storedAt, recorded⟩ := rplScan_recorded scan judged.1
    have listEq := rplUpdate_list cfg net.rpl slot rx storedAt
    have sum : netIviRx net.ivIndex rx + rx.oldIv.toNat = net.ivIndex :=
      ivBefore_add current judged.2
    refine ⟨⟨rx.addr, netIviRx net.ivIndex rx, rx.seq⟩, ?_, ?_, ?_, ?_⟩
    · simp [replayStep, outcome, consulted]
    · rintro ⟨_, below | ⟨entry, found, outdated⟩⟩
      · have := toNat_le rx.oldIv
        simp only at below
        omega
      · rcases recorded.admits entry found with ⟨new, old⟩ | ⟨same, newer⟩
        · simp only [Outdated, old, toNat_true] at outdated
          simp only [new, toNat_false] at sum
          omega
        · simp only [Outdated, ← same] at outdated
          omega
    · simp only [replayStep, outcome, listEq]
      obtain ⟨entry, found⟩ := recorded.entry
      refine ⟨rx.addr_ne_zero, .inr ⟨_, found, .inr ⟨sum, ?_⟩⟩⟩
      exact Nat.le_of_eq (entry.update_seq rx).symm
    · intro old spent
      simp only [replayStep, outcome, listEq]
      obtain ⟨nonzero, below | ⟨entry, found, outdated⟩⟩ := spent
      · exact ⟨nonzero, .inl below⟩
      refine ⟨nonzero, .inr ?_⟩
      by_cases same : old.src = rx.addr
      · rw [same] at found ⊢
        obtain ⟨_, freshFound⟩ := recorded.entry
        refine ⟨_, freshFound, ?_⟩
        unfold Outdated at outdated ⊢
        rw [Rpl.update_seq]
        change old.iv + rx.oldIv.toNat < _ ∨ (old.iv + rx.oldIv.toNat = _ ∧ _)
        rcases recorded.admits entry found with ⟨new, older⟩ | ⟨flag, newer⟩
        · simp only [new, older, toNat_true, toNat_false] at outdated ⊢
          omega
        · rw [flag]
          omega
      · exact ⟨entry, by rw [recorded.others _ same nonzero, found], outdated⟩

def SpentIn (net : Net) (message : MessageId) : Prop :=
  Spent net.ivIndex net.rpl.list message

theorem replay_recv_fresh (cfg : Config) (net : Net) (rx : NetRx)
    (current : net.ivIndex < 2 ^ 32) (judged : Judged net (.recv rx)) :
    (replayMachine cfg).Fresh (fun state => state.ivIndex < 2 ^ 32) SpentIn net
      (.recv rx) := by
  rcases recv_cases cfg current judged with
    ⟨silent, sameList⟩ | ⟨message, emitted, fresh, covered, stays⟩
  · have quiet : (replayMachine cfg).emit net (.recv rx) = [] := silent
    refine .silent quiet current ?_
    intro old spent
    change Spent net.ivIndex (replayStep cfg net (.recv rx)).1.rpl.list old
    rw [sameList]
    exact spent
  · have emits : (replayMachine cfg).emit net (.recv rx) = [message] := emitted
    refine ⟨current, ?_, ?_, ?_, stays⟩
    · rw [emits]
      exact nodup_singleton message
    · rw [emits]
      intro accepted member
      obtain rfl := mem_singleton.mp member
      exact fresh
    · rw [emits]
      intro accepted member
      obtain rfl := mem_singleton.mp member
      exact covered

theorem replay_fresh (cfg : Config) (net : Net) (input : ReplayInput)
    (current : net.ivIndex < 2 ^ 32) (judged : Judged net input) :
    (replayMachine cfg).Fresh (fun state => state.ivIndex < 2 ^ 32) SpentIn net
      input := by
  by_cases message : ∃ rx, input = .recv rx
  · obtain ⟨rx, rfl⟩ := message
    exact replay_recv_fresh cfg net rx current judged
  obtain ⟨silent, _, _, _, sameIv, sameRpl, effect⟩ :=
    replayStep_effect cfg net current input
      (fun rx equality => message ⟨rx, equality⟩)
  have quiet : (replayMachine cfg).emit net input = [] := silent
  rw [← sameIv] at current
  refine .silent quiet (effect.ivIndex_lt current) ?_
  intro old spent
  apply spent_ivUpdate effect
  rw [sameIv, sameRpl]
  exact spent

/-- No message is accepted twice in a run in which no entry of a checked source
stands behind an empty slot and no old message arrives at IV index zero. -/
theorem replay_accepted_nodup (cfg : Config) (net : Net)
    (inputs : List ReplayInput) (current : net.ivIndex < 2 ^ 32)
    (judged : (replayMachine cfg).Along Judged net inputs) :
    ((replayMachine cfg).trace net inputs).Nodup :=
  (Machine.trace_nodup (replay_fresh cfg) current judged).1

/-! A run on two slots: the second IV update drops the entry of source 1, and
the entry of source 2 is then behind an empty slot. -/

def ivTestConfig : Config :=
  { plainConfig with
    settings := false
    rplStoreTimeout := 0
    ivUpdateSeqLimit := 8000000
    ivUpdateTest := true }

def twoSlotNet : Net where
  ivIndex := 5
  seq := 0
  valid := true
  ivuInProgress := false
  ivuTest := true
  ivuPending := false
  ivuDuration := 0
  ivPending := false
  seqPending := false
  rpl := .boot 2

def unicastRx (addr seq : Nat) (oldIv : Bool)
    (addr_unicast : addrIsUnicast addr = true := by decide)
    (seq_lt : seq < 2 ^ 24 := by decide) : NetRx where
  netIf := .adv
  sub := 0
  addr := addr
  recvDst := 0x0010
  sendTtl := 7
  seq := seq
  oldIv := oldIv
  ctl := false
  localMatch := true
  friendMatch := false
  addr_unicast := addr_unicast
  seq_lt := seq_lt

theorem firstAddr_unicast : addrIsUnicast 1 = true := by decide

theorem fifthSeq_lt : 5 < 2 ^ 24 := by decide

theorem sixthSeq_lt : 6 < 2 ^ 24 := by decide

theorem seventhSeq_lt : 7 < 2 ^ 24 := by decide

def runBeforeReplay : List ReplayInput :=
  [.recv (unicastRx 1 1 false firstAddr_unicast firstSeq_lt),
    .ivUpdate 6 true false,
    .recv (unicastRx 2 1 false (by decide) firstSeq_lt),
    .ivUpdate 6 false false,
    .ivUpdate 7 true false]

def replayedRx : NetRx := unicastRx 2 1 true (by decide) firstSeq_lt

theorem replay_accepted_nodup_two :
    (replayMachine ivTestConfig).trace twoSlotNet runBeforeReplay =
      [⟨1, 5, 1⟩, ⟨2, 6, 1⟩] ∧
    ((replayMachine ivTestConfig).trace twoSlotNet runBeforeReplay).Nodup :=
  ⟨by decide, replay_accepted_nodup ivTestConfig twoSlotNet runBeforeReplay
    (by decide) (by decide)⟩

theorem replay_accepted_behind_empty :
    (replayMachine ivTestConfig).trace twoSlotNet
        (runBeforeReplay ++ [.recv replayedRx]) =
      [⟨1, 5, 1⟩, ⟨2, 6, 1⟩, ⟨2, 6, 1⟩] ∧
    ¬ ((replayMachine ivTestConfig).trace twoSlotNet
        (runBeforeReplay ++ [.recv replayedRx])).Nodup := by
  have repeated : (replayMachine ivTestConfig).trace twoSlotNet
      (runBeforeReplay ++ [.recv replayedRx]) =
        [⟨1, 5, 1⟩, ⟨2, 6, 1⟩, ⟨2, 6, 1⟩] := by decide
  rw [repeated]
  exact ⟨rfl, by decide⟩

end ZephyrBluetooth.Mesh
