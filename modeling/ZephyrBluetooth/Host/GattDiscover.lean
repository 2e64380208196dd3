import ZephyrBluetooth.Host.GattEntries

namespace ZephyrBluetooth.Host

open Data List

variable {func : DiscoverFunc}

/-! The discovery procedure of `gatt.c`: the requests that follow one another,
each from behind the last handle of the response before. -/

inductive DiscoverPending where
  | nothing
  | request
  | includedRead
  deriving DecidableEq

/-- A discovery after `bt_gatt_discover`: `requests` holds the start handles asked
for, the last one first, and `nulls` counts the calls of `func` without an
attribute. -/
structure Discovery where
  params : DiscoverParams
  pending : DiscoverPending
  calls : List FoundAttr
  requests : List Nat
  nulls : Nat
  stopped : Bool

def DiscoverParams.begin (params : DiscoverParams) : Discovery where
  params := params
  pending := .request
  calls := []
  requests := [params.startHandle]
  nulls := 0
  stopped := false

/-- What meets the outstanding request: a response, or an error; the error of
`read_included_uuid`, 0 if it sends; and whether `bt_gatt_discover` sends. -/
structure DiscoverAnswer where
  rsp : Option RspPdu
  readErr : BitVec 16
  sends : Bool

variable {answer : DiscoverAnswer}

namespace Discovery

variable (discovery : Discovery)

def finished : Discovery :=
  { discovery with nulls := discovery.nulls + 1 }

/-- `bt_gatt_discover`, and `func(NULL)` if it does not send. -/
def discover (sends : Bool) : Discovery :=
  if sends then
    { discovery with
      pending := .request
      requests := discovery.params.startHandle :: discovery.requests }
  else discovery.finished

def setStart (handle : Nat) : Discovery :=
  { discovery with params := { discovery.params with startHandle := handle } }

def discoverNext (sends : Bool) (lastHandle : Nat) : Discovery :=
  if lastHandle = 0 then discovery.discover sends
  else if lastHandle < 2 ^ 16 - 1 then
    if discovery.params.endHandle < lastHandle + 1 then
      (discovery.setStart (lastHandle + 1)).finished
    else (discovery.setStart (lastHandle + 1)).discover sends
  else (discovery.setStart lastHandle).finished

/-- `parse_include` returns the error of `read_included_uuid` as a handle. -/
def readIncludedUuid (answer : DiscoverAnswer)
    (attrHandle startHandle endHandle : Nat) : Discovery :=
  let included := { discovery with
    params := { discovery.params with
      startHandle := attrHandle
      inclStart := startHandle
      inclEnd := endHandle } }
  if answer.readErr = 0#16 then { included with pending := .includedRead }
  else included.discoverNext answer.sends (-answer.readErr).toNat

def afterParse (answer : DiscoverAnswer) (parsed : Parsed) : Discovery :=
  let called := { discovery with pending := .nothing, calls := parsed.calls }
  match parsed.outcome with
  | .resume handle => called.discoverNext answer.sends handle
  | .failed => called.finished
  | .stopped => { called with stopped := true }
  | .readIncluded attrHandle startHandle endHandle =>
    called.readIncludedUuid answer attrHandle startHandle endHandle

def includedAttr (uuid : BtUuid) : FoundAttr :=
  ⟨BtUuid.gattInclude, discovery.params.startHandle,
    .included discovery.params.inclStart discovery.params.inclEnd uuid⟩

def readIncludedUuidCb (func : DiscoverFunc) (sends : Bool) (pdu : RspPdu) :
    Discovery :=
  let ended := { discovery with pending := .nothing }
  if pdu.length ≠ 16 then ended.finished
  else
    let uuid := pdu.uuid128 0
    if !discovery.params.passes uuid then
      ended.discoverNext sends discovery.params.startHandle
    else
      let called :=
        { ended with calls := discovery.calls ++ [discovery.includedAttr uuid] }
      match func called.calls with
      | .stop => { called with stopped := true }
      | .proceed => called.discoverNext sends discovery.params.startHandle

/-- The callback of the outstanding request; a parser that does not return leaves
everything as it is. -/
def answered (func : DiscoverFunc) (answer : DiscoverAnswer) : Discovery :=
  match discovery.pending, answer.rsp with
  | .nothing, _ => discovery
  | .request, none | .includedRead, none =>
    { discovery with pending := .nothing }.finished
  | .request, some pdu =>
    match discovery.params.parse func pdu discovery.calls with
    | none => discovery
    | some parsed => discovery.afterParse answer parsed
  | .includedRead, some pdu => discovery.readIncludedUuidCb func answer.sends pdu

end Discovery

def discoverMachine (func : DiscoverFunc) :
    Machine Discovery DiscoverAnswer Unit where
  step discovery answer := (discovery.answered func answer, [])

namespace Discovery

/-- The start handles ascend within the range, there are no more of them than
handles, and `func(NULL)` ends a discovery that `func` did not stop. -/
structure Orderly (first last : Nat) (discovery : Discovery) : Prop where
  ascending : discovery.requests.Pairwise fun later earlier => earlier < later
  within : ∀ start ∈ discovery.requests, first ≤ start ∧ start ≤ last
  few : discovery.requests.length ≤ last - first + 1
  closed : discovery.nulls =
    if discovery.pending = .nothing ∧ discovery.stopped = false then 1 else 0

def asked (discovery : Discovery) : Nat := discovery.requests.headD 0

/-- Where a response lets the search go on, it goes on from no lower handle than
the request. -/
def Advances (func : DiscoverFunc) (discovery : Discovery)
    (answer : DiscoverAnswer) : Prop :=
  match discovery.pending, answer.rsp with
  | .request, some pdu =>
    let rsp := discovery.params.decode pdu
    (∀ handle, Passable func discovery.calls rsp.entries →
      rsp.finish (lastHandle 0 rsp.entries) = .resume handle →
      answer.sends → discovery.asked ≤ handle) ∧
    ∀ front attrHandle startHandle endHandle rest,
      rsp.entries = front ++ .included attrHandle startHandle endHandle :: rest →
      Passable func discovery.calls front →
      answer.readErr ≠ 0#16 → answer.sends →
      discovery.asked ≤ (-answer.readErr).toNat
  | .includedRead, some pdu =>
    pdu.length = 16 →
    (discovery.params.passes (pdu.uuid128 0) →
      func (discovery.calls ++ [discovery.includedAttr (pdu.uuid128 0)]) =
        .proceed) →
    answer.sends → discovery.asked ≤ discovery.params.startHandle
  | _, _ => True

end Discovery

def DiscoverParams.expectLen (params : DiscoverParams) : Nat :=
  match params.type, params.uuid with
  | .primary, some _ | .secondary, some _ => 4
  | _, _ => 1

theorem DiscoverParams.expectLen_pos (params : DiscoverParams) :
    1 ≤ params.expectLen := by
  unfold expectLen
  split <;> decide

def DiscoverAnswer.WellFormed (discovery : Discovery)
    (answer : DiscoverAnswer) : Prop :=
  ∀ pdu, discovery.pending = .request → answer.rsp = some pdu →
    discovery.params.expectLen ≤ pdu.length ∧ pdu.length < 2 ^ 16 ∧
      (discovery.params.type = .stdCharDesc → 0 < pdu.byte 0)

theorem descending_length_le {first : Nat} {values : List Nat}
    (descends : values.Pairwise fun later earlier => earlier < later)
    (above : ∀ value ∈ values, first ≤ value) {last : Nat}
    (head : values.headD first ≤ last) : values.length ≤ last - first + 1 := by
  induction values generalizing last with
  | nil => exact Nat.zero_le _
  | cons value rest ih =>
    obtain ⟨higher, sorted⟩ := pairwise_cons.mp descends
    obtain ⟨_, others⟩ := forall_mem_cons.mp above
    cases rest with
    | nil =>
      rw [length_singleton]
      omega
    | cons second =>
      have lower := higher second mem_cons_self
      have from_first := others second mem_cons_self
      have shorter := @ih sorted others (value - 1) (by
        show second ≤ value - 1
        omega)
      change value ≤ last at head
      rw [length_cons]
      omega

namespace Discovery

structure Underway (first last : Nat) (discovery : Discovery) : Prop where
  ascending : discovery.requests.Pairwise fun later earlier => earlier < later
  within : ∀ start ∈ discovery.requests, first ≤ start ∧ start ≤ last
  some_request : discovery.requests ≠ []
  quiet : discovery.nulls = 0
  unstopped : discovery.stopped = false
  endHandle : discovery.params.endHandle = last

variable {first last : Nat} {discovery : Discovery}

section

variable (underway : discovery.Underway first last)
include underway

theorem requests_eq :
    ∃ earlier, discovery.requests = discovery.asked :: earlier := by
  unfold asked
  cases shape : discovery.requests with
  | nil => exact absurd shape underway.some_request
  | cons start earlier => exact ⟨earlier, rfl⟩

theorem asked_within : first ≤ discovery.asked ∧ discovery.asked ≤ last := by
  obtain ⟨_, shape⟩ := requests_eq underway
  apply underway.within
  rw [shape]
  exact mem_cons_self

theorem few_requests : discovery.requests.length ≤ last - first + 1 := by
  refine descending_length_le underway.ascending
    (fun start member => (underway.within start member).1) ?_
  obtain ⟨_, shape⟩ := requests_eq underway
  rw [shape]
  exact (asked_within underway).2

theorem finished_orderly (ended : discovery.pending = .nothing) :
    discovery.finished.Orderly first last where
  ascending := underway.ascending
  within := underway.within
  few := by
    have few := few_requests underway
    exact few
  closed := by
    show discovery.nulls + 1 =
      if discovery.pending = .nothing ∧ discovery.stopped = false then 1 else 0
    rw [if_pos ⟨ended, underway.unstopped⟩, underway.quiet]

theorem setStart_underway (handle : Nat) :
    (discovery.setStart handle).Underway first last :=
  { underway with }

theorem discover_orderly_iff (ended : discovery.pending = .nothing) {sends : Bool}
    (inRange : discovery.params.startHandle ≤ last) :
    (discovery.discover sends).Orderly first last ↔
      (sends → discovery.asked < discovery.params.startHandle) := by
  unfold discover
  cases sends with
  | false =>
    exact iff_of_true (finished_orderly underway ended) nofun
  | true =>
    obtain ⟨earlier, shape⟩ := requests_eq underway
    rw [if_pos rfl]
    constructor
    · intro orderly _
      apply (pairwise_cons.mp orderly.ascending).1
      rw [shape]
      exact mem_cons_self
    · intro further
      have behind := further rfl
      have bounds := asked_within underway
      have ascending : (discovery.params.startHandle ::
          discovery.requests).Pairwise fun later earlier => earlier < later := by
        refine pairwise_cons.mpr ⟨?_, underway.ascending⟩
        intro start member
        rw [shape] at member
        rcases mem_cons.mp member with rfl | older
        · exact behind
        have sorted := underway.ascending
        rw [shape] at sorted
        exact lt_trans ((pairwise_cons.mp sorted).1 start older) behind
      have within : ∀ start ∈ discovery.params.startHandle :: discovery.requests,
            first ≤ start ∧ start ≤ last := by
        refine forall_mem_cons.mpr ⟨⟨?_, inRange⟩, underway.within⟩
        omega
      exact
        { ascending := ascending
          within := within
          few := descending_length_le ascending
            (fun start member => (within start member).1) inRange
          closed := underway.quiet }

theorem discoverNext_orderly_iff (ended : discovery.pending = .nothing)
    (positive : 1 ≤ first) (small : last < 2 ^ 16) {sends : Bool} {handle : Nat}
    (again : handle = 0 → discovery.params.startHandle ≤ discovery.asked) :
    (discovery.discoverNext sends handle).Orderly first last ↔
      (sends → discovery.asked ≤ handle) := by
  have bounds := asked_within underway
  unfold discoverNext
  by_cases unset : handle = 0
  · have low := again unset
    rw [if_pos unset, discover_orderly_iff underway ended (by omega)]
    apply forall_congr'
    intro _
    omega
  · rw [if_neg unset]
    by_cases inside : handle < 2 ^ 16 - 1
    · rw [if_pos inside, underway.endHandle]
      have moved := setStart_underway underway (handle + 1)
      by_cases beyond : last < handle + 1
      · rw [if_pos beyond]
        refine iff_of_true (finished_orderly moved ended) ?_
        intro _
        omega
      · rw [if_neg beyond, discover_orderly_iff moved ended (by
          show handle + 1 ≤ last
          omega)]
        exact forall_congr' fun _ => Nat.lt_succ_iff
    · rw [if_neg inside]
      refine iff_of_true
        (finished_orderly (setStart_underway underway handle) ended) ?_
      intro _
      omega

end

structure Searching (last : Nat) (discovery : Discovery) : Prop where
  some_request : discovery.requests ≠ []
  endHandle : discovery.params.endHandle = last
  unstopped : discovery.pending ≠ .nothing → discovery.stopped = false
  startHandle : discovery.pending = .request →
    discovery.params.startHandle = discovery.asked

theorem underway_of (searching : discovery.Searching last)
    (orderly : discovery.Orderly first last)
    (going : discovery.pending ≠ .nothing) :
    discovery.Underway first last where
  ascending := orderly.ascending
  within := orderly.within
  some_request := searching.some_request
  quiet := by
    rw [orderly.closed, if_neg]
    exact fun ended => going ended.1
  unstopped := searching.unstopped going
  endHandle := searching.endHandle

theorem afterParse_orderly_iff {rsp : DecodedRsp}
    (finishes : ∀ handle, rsp.finish handle = .failed ∨
      rsp.finish handle = .resume handle) (underway : discovery.Underway first last)
    (positive : 1 ≤ first) (small : last < 2 ^ 16)
    (current : discovery.params.startHandle = discovery.asked) :
    (discovery.afterParse answer
        (walkEntries func rsp.finish rsp.entries 0 discovery.calls)).Orderly
          first last ↔ (∀ handle, Passable func discovery.calls rsp.entries →
        rsp.finish (lastHandle 0 rsp.entries) = .resume handle →
        answer.sends → discovery.asked ≤ handle) ∧
      ∀ front attrHandle startHandle endHandle rest,
        rsp.entries = front ++ .included attrHandle startHandle endHandle :: rest →
        Passable func discovery.calls front →
        answer.readErr ≠ 0#16 → answer.sends →
        discovery.asked ≤ (-answer.readErr).toNat := by
  -- the walk over the entries in front of an included one ends there
  have reads {front : List DiscoverEntry} {attrHandle startHandle endHandle : Nat}
      {rest : List DiscoverEntry}
      (shape : rsp.entries =
        front ++ .included attrHandle startHandle endHandle :: rest)
      (passable : Passable func discovery.calls front) :
      (walkEntries func rsp.finish rsp.entries 0 discovery.calls).outcome =
        .readIncluded attrHandle startHandle endHandle := by
    rw [shape, walkEntries_append passable]
    rfl
  generalize walked :
    walkEntries func rsp.finish rsp.entries 0 discovery.calls = parsed at reads ⊢
  have called : ({ discovery with
      pending := .nothing, calls := parsed.calls } : Discovery).Underway
        first last := { underway with }
  unfold afterParse
  by_cases passable : Passable func discovery.calls rsp.entries
  · have outcome : parsed.outcome = rsp.finish (lastHandle 0 rsp.entries) := by
      rw [← walked, walkEntries_passable passable]
    rcases finishes (lastHandle 0 rsp.entries) with failed | resumed
    · rw [failed] at outcome
      rw [outcome, failed]
      refine iff_of_true (finished_orderly called rfl) ⟨?_, ?_⟩
      · exact nofun
      · intro front attrHandle startHandle endHandle rest shape before
        rw [reads shape before] at outcome
        cases outcome
    · rw [resumed] at outcome
      rw [outcome, resumed]
      have next := @discoverNext_orderly_iff first last _ called rfl positive
        small answer.sends (lastHandle 0 rsp.entries)
        (fun _ => le_of_eq current)
      refine next.trans ⟨fun further => ⟨?_, ?_⟩, fun further => ?_⟩
      · rintro handle - ⟨⟩
        exact further
      · intro front attrHandle startHandle endHandle rest shape before
        rw [reads shape before] at outcome
        cases outcome
      · exact further.1 _ passable rfl
  · have halted := @walkEntries_halted func rsp.finish
      discovery.calls rsp.entries passable 0
    rw [walked] at halted
    cases outcome : parsed.outcome with
    | resume =>
      rw [outcome] at halted
      cases halted
    | failed =>
      refine iff_of_true (finished_orderly called rfl)
        ⟨fun _ passed => absurd passed passable, ?_⟩
      intro front attrHandle startHandle endHandle rest shape before
      rw [reads shape before] at outcome
      cases outcome
    | stopped =>
      refine iff_of_true ?_ ⟨fun _ passed => absurd passed passable, ?_⟩
      · exact
          { ascending := underway.ascending
            within := underway.within
            few := by
              have few := few_requests underway
              exact few
            closed := underway.quiet }
      · intro front attrHandle startHandle endHandle rest shape before
        rw [reads shape before] at outcome
        cases outcome
    | readIncluded attrHandle startHandle endHandle =>
      rw [outcome] at halted
      cases halted with
      | included front rest _ _ _ shape before =>
        have called' : ({ discovery with
            pending := .nothing
            calls := parsed.calls
            params := { discovery.params with
              startHandle := attrHandle
              inclStart := startHandle
              inclEnd := endHandle } } : Discovery).Underway first last :=
          { underway with }
        unfold readIncludedUuid
        simp only
        by_cases sent : answer.readErr = 0#16
        · rw [if_pos sent]
          refine iff_of_true ?_ ⟨fun _ passed => absurd passed passable, ?_⟩
          · exact
              { ascending := underway.ascending
                within := underway.within
                few := by
                  have few := few_requests underway
                  exact few
                closed := underway.quiet }
          · intro _ _ _ _ _ _ _ unsent
            exact absurd sent unsent
        · rw [if_neg sent]
          have next := @discoverNext_orderly_iff first last _ called' rfl
            positive small answer.sends (-answer.readErr).toNat (by
              intro none
              have zero : -answer.readErr = 0#16 := BitVec.eq_of_toNat_eq none
              exact absurd (BitVec.neg_eq_zero_iff.mp zero) sent)
          refine next.trans ⟨fun further => ⟨?_, ?_⟩, fun further => ?_⟩
          · exact fun _ passed => absurd passed passable
          · exact fun _ _ _ _ _ _ _ _ => further
          · exact further.2 front _ _ _ rest shape before sent

theorem readIncludedUuidCb_orderly_iff {sends : Bool} {pdu : RspPdu}
    (underway : discovery.Underway first last) (positive : 1 ≤ first)
    (small : last < 2 ^ 16) :
    (discovery.readIncludedUuidCb func sends pdu).Orderly first last ↔
      (pdu.length = 16 → (discovery.params.passes (pdu.uuid128 0) →
          func (discovery.calls ++ [discovery.includedAttr (pdu.uuid128 0)]) =
            .proceed) →
        sends → discovery.asked ≤ discovery.params.startHandle) := by
  unfold readIncludedUuidCb
  have ended : ({ discovery with pending := .nothing } : Discovery).Underway
      first last := { underway with }
  have called : ({ discovery with
      pending := .nothing
      calls := discovery.calls ++ [discovery.includedAttr (pdu.uuid128 0)] } :
        Discovery).Underway first last := { underway with }
  by_cases whole : pdu.length = 16
  · simp only [if_neg (not_not.mpr whole)]
    cases passing : discovery.params.passes (pdu.uuid128 0) with
    | false =>
      have next := @discoverNext_orderly_iff first last _ ended rfl positive
        small sends discovery.params.startHandle
        (fun unset => Nat.le_trans (Nat.le_of_eq unset) (Nat.zero_le _))
      refine next.trans ⟨fun further _ _ => further, fun further => ?_⟩
      exact further whole nofun
    | true =>
      simp only [Bool.not_true, Bool.false_eq_true, if_false]
      cases verdict : func (discovery.calls ++
        [discovery.includedAttr (pdu.uuid128 0)]) with
      | stop =>
        refine iff_of_true ?_ (fun _ accepted => nomatch accepted trivial)
        exact
          { ascending := underway.ascending
            within := underway.within
            few := by
              have few := few_requests underway
              exact few
            closed := underway.quiet }
      | proceed =>
        have next := @discoverNext_orderly_iff first last _ called rfl
          positive small sends discovery.params.startHandle
          (fun unset => Nat.le_trans (Nat.le_of_eq unset) (Nat.zero_le _))
        refine next.trans ⟨fun further _ _ => further, fun further => ?_⟩
        exact further whole (fun _ => rfl)
  · simp only [if_pos whole]
    exact iff_of_true (finished_orderly ended rfl) (fun right => absurd right whole)

theorem answered_orderly_iff (searching : discovery.Searching last)
    (orderly : discovery.Orderly first last) (positive : 1 ≤ first)
    (small : last < 2 ^ 16) (wellFormed : answer.WellFormed discovery) :
    (discovery.answered func answer).Orderly first last ↔
      discovery.Advances func answer := by
  unfold answered Advances
  cases pending : discovery.pending with
  | nothing => exact iff_of_true orderly trivial
  | request =>
    have underway := underway_of searching orderly (by rw [pending]; decide)
    cases received : answer.rsp with
    | none => exact iff_of_true (finished_orderly { underway with } rfl) trivial
    | some pdu =>
      obtain ⟨expected, short, sized⟩ := wellFormed pdu pending received
      have nonempty : 1 ≤ pdu.length :=
        le_trans discovery.params.expectLen_pos expected
      simp only [DiscoverParams.parse_eq nonempty short sized]
      exact afterParse_orderly_iff
        (DiscoverParams.decode_finish discovery.params pdu) underway
        positive small (searching.startHandle pending)
  | includedRead =>
    have underway := underway_of searching orderly (by rw [pending]; decide)
    cases received : answer.rsp with
    | none => exact iff_of_true (finished_orderly { underway with } rfl) trivial
    | some => exact readIncludedUuidCb_orderly_iff underway positive small

/-- What the callback of a request can do: end the search, send the next request,
or read the UUID of an included service. -/
inductive Follows (before next : Discovery) : Prop where
  | ended (past : next.pending = .nothing)
      (requests : next.requests = before.requests)
      (endHandle : next.params.endHandle = before.params.endHandle)
  | requested (going : next.pending = .request)
      (requests : next.requests = next.params.startHandle :: before.requests)
      (stopped : next.stopped = before.stopped)
      (endHandle : next.params.endHandle = before.params.endHandle)
  | reading (first : before.pending = .request)
      (going : next.pending = .includedRead)
      (requests : next.requests = before.requests)
      (stopped : next.stopped = before.stopped)
      (endHandle : next.params.endHandle = before.params.endHandle)

theorem discover_follows (ended : discovery.pending = .nothing) (sends : Bool) :
    Follows discovery (discovery.discover sends) := by
  unfold discover
  split
  · exact .requested rfl rfl rfl rfl
  · exact .ended ended rfl rfl

theorem discoverNext_follows (ended : discovery.pending = .nothing)
    (sends : Bool) (handle : Nat) :
    Follows discovery (discovery.discoverNext sends handle) := by
  unfold discoverNext
  split
  · exact discover_follows ended sends
  split
  · split
    · exact .ended ended rfl rfl
    cases sends with
    | true => exact .requested rfl rfl rfl rfl
    | false => exact .ended ended rfl rfl
  · exact .ended ended rfl rfl

theorem Follows.of_begun {begun next : Discovery} (follows : Follows begun next)
    (past : begun.pending = .nothing)
    (requests : begun.requests = discovery.requests)
    (stopped : begun.stopped = discovery.stopped)
    (endHandle : begun.params.endHandle = discovery.params.endHandle) :
    Follows discovery next := by
  cases follows with
  | ended done same last =>
    exact .ended done (same.trans requests) (last.trans endHandle)
  | requested going more same last =>
    rw [requests] at more
    exact .requested going more (same.trans stopped) (last.trans endHandle)
  | reading first =>
    rw [past] at first
    cases first

theorem afterParse_follows (asking : discovery.pending = .request)
    (answer : DiscoverAnswer) (parsed : Parsed) :
    Follows discovery (discovery.afterParse answer parsed) := by
  unfold afterParse
  cases parsed.outcome with
  | resume handle =>
    exact (discoverNext_follows rfl answer.sends handle).of_begun rfl rfl rfl rfl
  | failed => exact .ended rfl rfl rfl
  | stopped => exact .ended rfl rfl rfl
  | readIncluded =>
    unfold readIncludedUuid
    simp only
    split
    · exact .reading asking rfl rfl rfl rfl
    · exact (discoverNext_follows rfl answer.sends _).of_begun rfl rfl rfl rfl

theorem readIncludedUuidCb_follows (func : DiscoverFunc) (sends : Bool)
    (pdu : RspPdu) :
    Follows discovery (discovery.readIncludedUuidCb func sends pdu) := by
  unfold readIncludedUuidCb
  simp only
  split
  · exact .ended rfl rfl rfl
  split
  · exact (discoverNext_follows rfl sends _).of_begun rfl rfl rfl rfl
  split
  · exact .ended rfl rfl rfl
  · exact (discoverNext_follows rfl sends _).of_begun rfl rfl rfl rfl

theorem answered_follows (func : DiscoverFunc)
    (wellFormed : answer.WellFormed discovery)
    (going : discovery.pending ≠ .nothing) :
    Follows discovery (discovery.answered func answer) := by
  unfold answered
  cases pending : discovery.pending with
  | nothing => exact absurd pending going
  | request =>
    cases received : answer.rsp with
    | none => exact .ended rfl rfl rfl
    | some pdu =>
      obtain ⟨expected, short, sized⟩ := wellFormed pdu pending received
      have nonempty : 1 ≤ pdu.length :=
        le_trans discovery.params.expectLen_pos expected
      simp only [DiscoverParams.parse_eq nonempty short sized]
      exact afterParse_follows pending answer _
  | includedRead =>
    cases answer.rsp with
    | none => exact .ended rfl rfl rfl
    | some pdu => exact readIncludedUuidCb_follows func answer.sends pdu

theorem answered_searching (func : DiscoverFunc)
    (wellFormed : answer.WellFormed discovery)
    (searching : discovery.Searching last) :
    (discovery.answered func answer).Searching last := by
  by_cases past : discovery.pending = .nothing
  · have still : discovery.answered func answer = discovery := by
      unfold answered
      rw [past]
    rw [still]
    exact searching
  · have calm := searching.unstopped past
    have range := searching.endHandle
    cases answered_follows func wellFormed past with
    | ended done same last =>
      exact
        { some_request := same ▸ searching.some_request
          endHandle := last.trans range
          unstopped := fun still => absurd done still
          startHandle := fun still => by rw [done] at still; cases still }
    | requested going more same last =>
      exact
        { some_request := by rw [more]; exact cons_ne_nil _ _
          endHandle := last.trans range
          unstopped := fun _ => same.trans calm
          startHandle := fun _ => by unfold asked; rw [more]; rfl }
    | reading first going requests same last =>
      exact
        { some_request := requests ▸ searching.some_request
          endHandle := last.trans range
          unstopped := fun _ => same.trans calm
          startHandle := fun still => by rw [going] at still; cases still }

def remaining (last : Nat) (discovery : Discovery) : Nat :=
  match discovery.pending with
  | .nothing => 0
  | .request => 2 * (last - discovery.asked) + 2
  | .includedRead => 2 * (last - discovery.asked) + 1

theorem answered_remaining (func : DiscoverFunc)
    (wellFormed : answer.WellFormed discovery)
    (searching : discovery.Searching last)
    (orderly : (discovery.answered func answer).Orderly first last) :
    (discovery.answered func answer).remaining last ≤
      discovery.remaining last - 1 := by
  by_cases past : discovery.pending = .nothing
  · have still : discovery.answered func answer = discovery := by
      unfold answered
      rw [past]
    rw [still]
    unfold remaining
    rw [past]
    exact Nat.zero_le _
  · cases answered_follows func wellFormed past with
    | ended done =>
      unfold remaining
      rw [done]
      exact Nat.zero_le _
    | requested going more =>
      have some_request := searching.some_request
      have higher : discovery.asked < (discovery.answered func answer).asked := by
        have ascending := orderly.ascending
        rw [more] at ascending
        unfold asked
        rw [more]
        cases shape : discovery.requests with
        | nil => exact absurd shape some_request
        | cons start =>
          rw [shape] at ascending
          exact (pairwise_cons.mp ascending).1 start mem_cons_self
      have inside : (discovery.answered func answer).asked ≤ last := by
        apply (orderly.within _ _).2
        unfold asked
        rw [more]
        exact mem_cons_self
      unfold remaining
      rw [going]
      cases pending : discovery.pending with
      | nothing => exact absurd pending past
      | request =>
        simp only
        omega
      | includedRead =>
        simp only
        omega
    | reading asking going requests =>
      have level : (discovery.answered func answer).asked =
          discovery.asked := by
        unfold asked
        rw [requests]
      unfold remaining
      rw [going, asking, level]
      exact le_of_eq rfl

theorem run_remaining {answers : List DiscoverAnswer}
    (wellFormed : (discoverMachine func).Along
      (fun discovery answer => answer.WellFormed discovery) discovery answers)
    (searching : discovery.Searching last)
    (orderly : (discoverMachine func).Always (Orderly first last) discovery
      answers) : ((discoverMachine func).run discovery answers).remaining last ≤
      discovery.remaining last - answers.length := by
  induction answers generalizing discovery with
  | nil => exact le_refl _
  | cons answer rest ih =>
    have reached : (discovery.answered func answer).Orderly first last := by
      cases rest with
      | nil => exact orderly.2
      | cons => exact orderly.2.1
    have lower := answered_remaining func wellFormed.1 searching reached
    have later := ih wellFormed.2
      (answered_searching func wellFormed.1 searching) orderly.2
    refine le_trans later ?_
    rw [length_cons]
    change (discovery.answered func answer).remaining last - rest.length ≤
      discovery.remaining last - (rest.length + 1)
    omega

/-- The discovery is orderly in every state, and two responses for each handle of
the range bring it to its end. -/
def OrderlyRun (func : DiscoverFunc) (params : DiscoverParams)
    (answers : List DiscoverAnswer) : Prop :=
  (discoverMachine func).Always (Orderly params.startHandle params.endHandle)
      params.begin answers ∧
    (2 * (params.endHandle - params.startHandle + 1) ≤ answers.length →
      ((discoverMachine func).run params.begin answers).pending = .nothing)

theorem begin_searching (params : DiscoverParams) :
    params.begin.Searching params.endHandle where
  some_request := cons_ne_nil _ _
  endHandle := rfl
  unstopped := fun _ => rfl
  startHandle := fun _ => rfl

theorem begin_orderly {params : DiscoverParams}
    (order : params.startHandle ≤ params.endHandle) :
    params.begin.Orderly params.startHandle params.endHandle where
  ascending := pairwise_singleton _ _
  within := by
    intro start member
    rw [mem_singleton.mp member]
    exact ⟨le_refl _, order⟩
  few := by
    show 1 ≤ params.endHandle - params.startHandle + 1
    omega
  closed := rfl

/-- Whatever a server answers, a discovery is orderly to its end exactly when each
response that lets it go on reaches the start of its request. -/
theorem discover_orderlyRun_iff (func : DiscoverFunc) {params : DiscoverParams}
    (positive : 1 ≤ params.startHandle)
    (order : params.startHandle ≤ params.endHandle)
    (small : params.endHandle < 2 ^ 16) (answers : List DiscoverAnswer)
    (wellFormed : (discoverMachine func).Along
      (fun discovery answer => answer.WellFormed discovery) params.begin
      answers) : OrderlyRun func params answers ↔
      (discoverMachine func).Along (Advances func) params.begin answers := by
  have always := @Machine.always_iff_along_of _ _ _ (discoverMachine func)
    (Searching params.endHandle)
    (Orderly params.startHandle params.endHandle)
    (fun discovery answer => answer.WellFormed discovery) (Advances func)
    (fun discovery answer searching wellFormed =>
      answered_searching func wellFormed searching)
    (fun discovery answer searching orderly wellFormed =>
      answered_orderly_iff searching orderly positive small wellFormed)
    params.begin answers wellFormed (begin_searching params)
    (begin_orderly order)
  refine ⟨fun run => always.mp run.1, fun along => ⟨always.mpr along, ?_⟩⟩
  intro many
  have spent := run_remaining wellFormed (begin_searching params) (always.mpr along)
  have budget : params.begin.remaining params.endHandle =
      2 * (params.endHandle - params.startHandle) + 2 := rfl
  rw [budget] at spent
  generalize (discoverMachine func).run params.begin answers = reached at spent ⊢
  unfold remaining at spent
  cases pending : reached.pending with
  | nothing => rfl
  | request =>
    rw [pending] at spent
    simp only at spent
    omega
  | includedRead =>
    rw [pending] at spent
    simp only at spent
    omega

end Discovery

def wholeSearch (type : DiscoverType) : DiscoverParams where
  type := type
  uuid := none
  startHandle := 1
  endHandle := 0xffff
  inclStart := 0
  inclEnd := 0

def answerOf (bytes : List Byte) : DiscoverAnswer where
  rsp := some (RspPdu.ofList bytes)
  readErr := 0#16
  sends := true

theorem discover_orderlyRun_iff_chrc :
    (Discovery.OrderlyRun keepGoing (wholeSearch .characteristic)
        [answerOf [7, 5, 0, 2, 6, 0, 0x19, 0x2a], ⟨none, 0#16, true⟩] ↔
      (discoverMachine keepGoing).Along (Discovery.Advances keepGoing)
        (wholeSearch .characteristic).begin
        [answerOf [7, 5, 0, 2, 6, 0, 0x19, 0x2a], ⟨none, 0#16, true⟩]) := by
  refine Discovery.discover_orderlyRun_iff keepGoing (by decide) (by decide)
    (by decide) _ ⟨?_, ?_, trivial⟩
  · rintro pdu - ⟨⟩
    exact ⟨by decide, by decide, nofun⟩
  · rintro pdu - ⟨⟩

theorem discover_repeats : ¬ ∀ (func : DiscoverFunc) (params : DiscoverParams)
      (answers : List DiscoverAnswer), 1 ≤ params.startHandle →
      params.startHandle ≤ params.endHandle → params.endHandle < 2 ^ 16 →
      (discoverMachine func).Along
        (fun discovery answer => answer.WellFormed discovery) params.begin
        answers → Discovery.OrderlyRun func params answers := by
  intro orderly
  have run := orderly keepGoing (wholeSearch .descriptor)
    [answerOf [1, 0, 0, 2, 0x29]] (by decide) (by decide) (by decide) (by
      refine ⟨?_, trivial⟩
      rintro _ - ⟨⟩
      exact ⟨by decide, by decide, nofun⟩)
  have ascending := run.1.2.ascending
  have requests : ((discoverMachine keepGoing).next (wholeSearch .descriptor).begin
      (answerOf [1, 0, 0, 2, 0x29])).requests = [1, 1] := rfl
  rw [requests] at ascending
  exact lt_irrefl 1 ((pairwise_cons.mp ascending).1 1 mem_cons_self)

end ZephyrBluetooth.Host
