import ZephyrBluetooth.Host.GattDiscover
import ZephyrBluetooth.Host.GattFilter
import ZephyrBluetooth.Host.RspBytes

namespace ZephyrBluetooth.Host

open Data List

/-! The discovery of descriptors against a server that may split the Find
Information responses as it likes. -/

/-- `struct bt_att_info_16` or `struct bt_att_info_128`; no other types are sent. -/
def infoSize : BtUuid → Option Nat
  | .uuid16 _ => some 4
  | .uuid128 _ => some 18
  | .uuid32 _ => none

def infoFormat (len : Nat) : Byte := if len = 4 then 1 else 2

def infoUuid : BtUuid → List Byte
  | .uuid16 val => le16 val.toNat
  | .uuid128 val => BtUuid.littleEndian 16 val.toNat
  | .uuid32 _ => []

def infoBytes (pair : Nat × BtUuid) : List Byte := le16 pair.1 ++ infoUuid pair.2

def infoRsp (len : Nat) (pairs : List (Nat × BtUuid)) : List Byte :=
  infoFormat len :: pairs.flatMap infoBytes

structure InfoPairs (len : Nat) (pairs : List (Nat × BtUuid)) : Prop where
  sizes : ∀ pair ∈ pairs, infoSize pair.2 = some len
  handles : ∀ pair ∈ pairs, pair.1 < 2 ^ 16
  short : 1 + len * pairs.length < 2 ^ 16

section Decoding

variable {len : Nat} {pairs : List (Nat × BtUuid)}

theorem infoSize_cases {uuid : BtUuid} (size : infoSize uuid = some len) :
    (len = 4 ∧ ∃ val, uuid = .uuid16 val) ∨
      (len = 18 ∧ ∃ val, uuid = .uuid128 val) := by
  cases uuid with
  | uuid16 val =>
    cases size
    exact .inl ⟨rfl, val, rfl⟩
  | uuid32 => cases size
  | uuid128 val =>
    cases size
    exact .inr ⟨rfl, val, rfl⟩

theorem infoBytes_length {pair : Nat × BtUuid}
    (size : infoSize pair.2 = some len) : (infoBytes pair).length = len := by
  unfold infoBytes
  obtain ⟨rfl, val, equal⟩ | ⟨rfl, val, equal⟩ := infoSize_cases size
  · rw [equal]
    rfl
  · rw [equal, length_append, infoUuid, BtUuid.littleEndian_length]
    rfl

theorem infoPairs_length (sizes : ∀ pair ∈ pairs, infoSize pair.2 = some len) :
    (pairs.flatMap infoBytes).length = len * pairs.length := by
  induction pairs with
  | nil => rfl
  | cons pair rest ih =>
    have own := infoBytes_length (sizes pair mem_cons_self)
    have later := ih fun other member =>
      sizes other (mem_cons_of_mem _ member)
    rw [flatMap_cons, length_append, own, later, length_cons,
      mul_add_one, add_comm]

theorem infoAt_rsp (front back : List Byte) {index : Nat}
    (place : front.length = 1 + len * index)
    (sizes : ∀ pair ∈ pairs, infoSize pair.2 = some len)
    (handles : ∀ pair ∈ pairs, pair.1 < 2 ^ 16) :
    infoAt (.ofList (front ++ (pairs.flatMap infoBytes ++ back))) len index
      pairs.length = pairs := by
  induction pairs generalizing front index with
  | nil => rfl
  | cons pair rest ih =>
    obtain ⟨handle, uuid⟩ := pair
    have size := sizes _ mem_cons_self
    have small := handles _ mem_cons_self
    have own := infoBytes_length size
    have behind : (front ++ infoBytes (handle, uuid)).length =
        1 + len * (index + 1) := by
      rw [length_append, own, place, mul_add_one, add_assoc]
    have later := ih (front ++ infoBytes (handle, uuid)) behind
      (fun other member => sizes other (mem_cons_of_mem _ member))
      (fun other member => handles other (mem_cons_of_mem _ member))
    have whole : front ++ (((handle, uuid) :: rest).flatMap infoBytes ++ back) =
        front ++ infoBytes (handle, uuid) ++ (rest.flatMap infoBytes ++ back) := by
      simp only [flatMap_cons, append_assoc]
    rw [length_cons, infoAt, whole, later, ← place]
    congr 1
    have word := RspPdu.word_at front (infoUuid uuid ++
      (rest.flatMap infoBytes ++ back)) small
    have bytes : infoBytes (handle, uuid) = le16 handle ++ infoUuid uuid := rfl
    rw [bytes, append_assoc, append_assoc, word]
    congr 1
    have type : front ++ (le16 handle ++ (infoUuid uuid ++
        (rest.flatMap infoBytes ++ back))) =
        (front ++ le16 handle) ++ (infoUuid uuid ++
          (rest.flatMap infoBytes ++ back)) := by
      rw [append_assoc]
    have typePlace : front.length + 2 = (front ++ le16 handle).length := by
      rw [length_append]
      rfl
    rw [type, typePlace]
    obtain ⟨rfl, val, rfl⟩ | ⟨rfl, val, rfl⟩ := infoSize_cases size
    · rw [if_pos rfl]
      exact RspPdu.uuid16_at _ _ val
    · rw [if_neg (by decide)]
      exact RspPdu.uuid128_at _ _ val

theorem infoRsp_length (sizes : ∀ pair ∈ pairs, infoSize pair.2 = some len) :
    (infoRsp len pairs).length = 1 + len * pairs.length := by
  unfold infoRsp
  rw [length_cons, infoPairs_length sizes, add_comm]

theorem infoSize_pos {uuid : BtUuid} (size : infoSize uuid = some len) :
    0 < len := by
  obtain ⟨rfl, -⟩ | ⟨rfl, -⟩ := infoSize_cases size
  · decide
  · decide

theorem decodeInfo_rsp (info : InfoPairs len pairs) (some : pairs ≠ [])
    (params : DiscoverParams) : params.decodeInfo (.ofList (infoRsp len pairs)) =
      ⟨infoEntries params false pairs, .resume⟩ := by
  obtain ⟨first, member⟩ := exists_mem_of_ne_nil pairs some
  have size := info.sizes first member
  have positive := infoSize_pos size
  have length := infoRsp_length info.sizes
  have short := info.short
  have format : infoLen (.ofList (infoRsp len pairs)) = Option.some len := by
    have byte := RspPdu.byte_at [] (pairs.flatMap infoBytes) (infoFormat len)
    unfold infoLen infoRsp
    rw [nil_append, length_nil] at byte
    rw [byte]
    obtain ⟨rfl, -⟩ | ⟨rfl, -⟩ := infoSize_cases size
    · rfl
    · rfl
  have behind : (RspPdu.ofList (infoRsp len pairs)).behindFirst =
      len * pairs.length := by
    have whole : (RspPdu.ofList (infoRsp len pairs)).length =
        1 + len * pairs.length := length
    rw [RspPdu.behindFirst_eq (by omega) (by omega), whole, Nat.add_sub_cancel_left]
  have least : len ≤ len * pairs.length :=
    Nat.le_mul_of_pos_right _ (length_pos_of_ne_nil some)
  have found := @infoAt_rsp len pairs [infoFormat len] [] 0 rfl info.sizes
    info.handles
  rw [append_nil] at found
  unfold DiscoverParams.decodeInfo
  rw [format, behind]
  simp only [if_neg (not_lt.mpr least), Nat.mul_div_cancel_left _ positive]
  congr 2

end Decoding

/-- The attributes that are neither declarations nor characteristic values, which
follow their declaration; the flag says that a value is to come. -/
def descriptors : Bool → List (Nat × BtUuid) → List (Nat × BtUuid)
  | _, [] => []
  | true, _ :: rest => descriptors false rest
  | false, pair :: rest =>
    if notDescriptor pair.2 then descriptors false rest
    else if pair.2.same BtUuid.gattChrc then descriptors true rest
    else pair :: descriptors false rest

def declared : Bool → List (Nat × BtUuid) → Bool
  | flag, [] => flag
  | true, _ :: rest => declared false rest
  | false, pair :: rest =>
    declared (!notDescriptor pair.2 && pair.2.same BtUuid.gattChrc) rest

/-- A discovery of descriptors in a database whose types are sent with 16 or 128
bits.  A filter for declarations is refused by `bt_gatt_discover`. -/
structure DescriptorSearch (Data : Type) where
  database : GattDb Data
  sorted : database.Sorted
  sized : ∀ entry ∈ database.attributes, infoSize entry.1.uuid ≠ none
  params : DiscoverParams
  type : params.type = .descriptor
  filtered : ∀ uuid, params.uuid = some uuid →
    notDescriptor uuid = false ∧ uuid.same BtUuid.gattChrc = false
  start_pos : 0 < params.startHandle
  order : params.startHandle ≤ params.endHandle
  end_lt : params.endHandle < 2 ^ 16

namespace DescriptorSearch

variable {Data : Type} (search : DescriptorSearch Data)

def attrs : List (Nat × BtUuid) :=
  search.database.attributes.map fun entry => (entry.2, entry.1.uuid)

def inRange (startHandle endHandle : Nat) : List (Nat × BtUuid) :=
  search.attrs.filter fun pair =>
    decide (startHandle ≤ pair.1) && decide (pair.1 ≤ endHandle)

def answer (pairs : List (Nat × BtUuid)) (len : Nat) : DiscoverAnswer where
  rsp := if pairs = [] then none else some (.ofList (infoRsp len pairs))
  readErr := 0
  sends := true

structure Response where
  len : Nat
  pairs : List (Nat × BtUuid)

def machine : Machine Discovery Response Unit where
  step discovery response :=
    (discovery.answered keepGoing (answer response.pairs response.len), [])

structure Allowed (discovery : Discovery) (response : Response) : Prop where
  asked : discovery.pending = .request
  prefixed : response.pairs <+:
    search.inRange discovery.params.startHandle discovery.params.endHandle
  nonempty : response.pairs = [] →
    search.inRange discovery.params.startHandle discovery.params.endHandle = []
  info : InfoPairs response.len response.pairs

structure Served (responses : List Response) : Prop where
  allowed : machine.Along search.Allowed search.params.begin responses
  ended : (machine.run search.params.begin responses).pending = .nothing

def found (pair : Nat × BtUuid) : FoundAttr := ⟨pair.2, pair.1, .none⟩

def wanted : List FoundAttr :=
  (((descriptors false search.attrs).filter fun pair =>
    decide (search.params.startHandle ≤ pair.1) &&
      decide (pair.1 ≤ search.params.endHandle)).filter fun pair =>
        search.params.passes pair.2).map found

def Reports (responses : List Response) : Prop :=
  (machine.run search.params.begin responses).calls = search.wanted

def flagged : Bool :=
  declared false (search.attrs.filter fun pair =>
    decide (pair.1 < search.params.startHandle))

/-- Without a filter: behind a declaration it makes no difference whether the
first attribute of a response is taken for its value.  With a filter: no value
passes it. -/
def Settled (flag : Bool) (pairs : List (Nat × BtUuid)) : Prop :=
  match search.params.uuid with
  | none => flag = true → descriptors true pairs = descriptors false pairs
  | some _ => ∀ pair ∈ pairs, search.params.passes pair.2 →
      pair ∈ descriptors flag pairs

def SettledAll : Bool → List Response → Prop
  | _, [] => True
  | flag, response :: rest =>
    search.Settled flag response.pairs ∧
      SettledAll (declared flag response.pairs) rest

end DescriptorSearch

theorem descriptors_append (flag : Bool) (front back : List (Nat × BtUuid)) :
    descriptors flag (front ++ back) =
      descriptors flag front ++ descriptors (declared flag front) back := by
  induction front generalizing flag with
  | nil =>
    cases flag with
    | true => rfl
    | false => rfl
  | cons pair rest ih =>
    cases flag with
    | true => exact ih false
    | false =>
      simp only [cons_append, descriptors, declared]
      cases notDescriptor pair.2 with
      | true => exact ih false
      | false =>
        cases pair.2.same BtUuid.gattChrc with
        | true => exact ih true
        | false =>
          have later := ih false
          simp only [Bool.false_eq_true, if_false, Bool.not_false,
            Bool.and_false, later, cons_append]

theorem descriptors_sublist (flag : Bool) (pairs : List (Nat × BtUuid)) :
    (descriptors flag pairs).Sublist pairs := by
  induction pairs generalizing flag with
  | nil =>
    cases flag with
    | true => exact List.Sublist.refl _
    | false => exact List.Sublist.refl _
  | cons pair rest ih =>
    cases flag with
    | true => exact (ih false).cons pair
    | false =>
      unfold descriptors
      split
      · exact (ih false).cons pair
      split
      · exact (ih true).cons pair
      · exact (ih false).cons_cons pair

section Entries

variable {params : DiscoverParams}

theorem infoEntries_handles (flag : Bool) (pairs : List (Nat × BtUuid)) :
    ∀ entry ∈ infoEntries params flag pairs, entry.handle.isSome = true := by
  induction pairs generalizing flag with
  | nil =>
    cases flag with
    | true => simp [infoEntries]
    | false => simp [infoEntries]
  | cons pair rest ih =>
    obtain ⟨_, _⟩ := pair
    cases flag with
    | true => exact forall_mem_cons.mpr ⟨rfl, ih false⟩
    | false =>
      unfold infoEntries
      split
      · exact forall_mem_cons.mpr ⟨rfl, ih false⟩
      split
      · exact forall_mem_cons.mpr ⟨rfl, ih false⟩
      split
      · exact forall_mem_cons.mpr ⟨rfl, ih true⟩
      · exact forall_mem_cons.mpr ⟨rfl, ih false⟩

theorem infoEntries_last (flag : Bool) (pairs : List (Nat × BtUuid))
    (before : Nat) : lastHandle before (infoEntries params flag pairs) =
      (pairs.map Prod.fst).getLastD before := by
  induction pairs generalizing flag before with
  | nil =>
    cases flag with
    | true => rfl
    | false => rfl
  | cons pair rest ih =>
    obtain ⟨handle, uuid⟩ := pair
    have shift : (((handle, uuid) :: rest).map Prod.fst).getLastD before =
        (rest.map Prod.fst).getLastD handle := by
      cases rest with
      | nil => rfl
      | cons => rfl
    rw [shift]
    cases flag with
    | true => exact ih false handle
    | false =>
      unfold infoEntries
      split
      · exact ih false handle
      split
      · exact ih false handle
      split
      · exact ih true handle
      · exact ih false handle

theorem infoEntries_reports (descriptor : params.type = .descriptor)
    (all : params.uuid = none) (flag : Bool) (pairs : List (Nat × BtUuid)) :
    (infoEntries params flag pairs).filterMap DiscoverEntry.reports =
      (descriptors flag pairs).map DescriptorSearch.found := by
  have passes : ∀ uuid, params.passes uuid = true := by
    intro uuid
    unfold DiscoverParams.passes
    rw [all]
    rfl
  induction pairs generalizing flag with
  | nil =>
    cases flag with
    | true => rfl
    | false => rfl
  | cons pair rest ih =>
    obtain ⟨_, uuid⟩ := pair
    cases flag with
    | true => exact ih false
    | false =>
      unfold infoEntries descriptors
      simp only [passes, descriptor, true_and, Bool.not_true,
        Bool.false_eq_true, if_false]
      split
      · exact ih false
      split
      · exact ih true
      · rw [map_cons, ← ih false]
        rfl

theorem infoEntries_filtered {wanted : BtUuid}
    (filter : params.uuid = some wanted) (other : notDescriptor wanted = false)
    (value : wanted.same BtUuid.gattChrc = false) (pairs : List (Nat × BtUuid)) :
    (infoEntries params false pairs).filterMap DiscoverEntry.reports =
      (pairs.filter fun pair => params.passes pair.2).map
        DescriptorSearch.found := by
  have kept : ∀ uuid, params.passes uuid = true →
      notDescriptor uuid = false ∧ uuid.same BtUuid.gattChrc = false := by
    intro uuid passed
    unfold DiscoverParams.passes at passed
    rw [filter] at passed
    have same := fun other => @BtUuid.same_of_same uuid wanted other passed
    unfold notDescriptor at other ⊢
    rw [same, same, same, same]
    exact ⟨other, value⟩
  induction pairs with
  | nil => rfl
  | cons pair rest ih =>
    obtain ⟨_, uuid⟩ := pair
    unfold infoEntries
    cases passed : params.passes uuid with
    | true =>
      obtain ⟨plain, noValue⟩ := kept uuid passed
      rw [filter_cons_of_pos (by exact passed), map_cons, ← ih]
      simp only [plain, noValue, Bool.not_true, Bool.false_eq_true,
        and_false, if_false]
      rfl
    | false =>
      rw [filter_cons_of_neg (by simp [passed]), ← ih]
      rfl

end Entries

namespace DescriptorSearch

variable {Data : Type} {search : DescriptorSearch Data} {attr : GattAttr Data}

theorem attrs_handles (search : DescriptorSearch Data) :
    search.attrs.map Prod.fst = search.database.handles := by
  unfold attrs GattDb.handles
  rw [map_map]
  rfl

theorem attrs_ascending (search : DescriptorSearch Data) :
    (search.attrs.map Prod.fst).Pairwise (· < ·) := by
  rw [attrs_handles]
  exact search.sorted.handles

theorem inRange_ascending (startHandle endHandle : Nat) :
    ((search.inRange startHandle endHandle).map Prod.fst).Pairwise (· < ·) :=
  search.attrs_ascending.sublist (filter_sublist.map _)

theorem inRange_bounds {startHandle endHandle : Nat} {pair : Nat × BtUuid}
    (member : pair ∈ search.inRange startHandle endHandle) :
    0 < pair.1 ∧ startHandle ≤ pair.1 ∧ pair.1 ≤ endHandle := by
  obtain ⟨listed, bounds⟩ := mem_filter.mp member
  have known : pair.1 ∈ search.database.handles := by
    rw [← attrs_handles]
    exact mem_map_of_mem listed
  rw [Bool.and_eq_true, decide_eq_true_eq, decide_eq_true_eq] at bounds
  exact ⟨search.sorted.positive _ known, bounds⟩

theorem inRange_next {startHandle endHandle : Nat}
    {front tail : List (Nat × BtUuid)}
    (split : search.inRange startHandle endHandle = front ++ tail)
    (some : front ≠ []) :
    search.inRange ((front.map Prod.fst).getLastD 0 + 1) endHandle = tail := by
  obtain ⟨init, last, rfl⟩ := (eq_nil_or_concat' front).resolve_left some
  have ascending := @search.inRange_ascending _ startHandle endHandle
  have within : last ∈ search.inRange startHandle endHandle := by
    rw [split]
    simp
  have bounds := inRange_bounds within
  rw [split, map_append, pairwise_append, map_append, pairwise_append] at ascending
  obtain ⟨⟨-, -, before⟩, -, above⟩ := ascending
  have end_eq : ((init ++ [last]).map Prod.fst).getLastD 0 = last.1 := by
    simp [getLastD_eq_getLast?]
  have narrowed : search.inRange (last.1 + 1) endHandle =
      (search.inRange startHandle endHandle).filter fun pair =>
        decide (last.1 + 1 ≤ pair.1) := by
    unfold inRange
    rw [filter_filter]
    apply filter_congr
    intro pair _
    rw [Bool.eq_iff_iff]
    simp only [Bool.and_eq_true, decide_eq_true_eq]
    omega
  rw [end_eq, narrowed, split, filter_append]
  have none : (init ++ [last]).filter (fun pair =>
      decide (last.1 + 1 ≤ pair.1)) = [] := by
    rw [filter_eq_nil_iff]
    intro pair member beyond
    rw [decide_eq_true_eq] at beyond
    rcases mem_append.mp member with earlier | same
    · have lower := before pair.1 (mem_map_of_mem earlier) last.1 (by simp)
      omega
    · rw [mem_singleton.mp same] at beyond
      omega
  have all : tail.filter (fun pair => decide (last.1 + 1 ≤ pair.1)) = tail := by
    rw [filter_eq_self]
    intro pair member
    have higher := above last.1 (by simp) pair.1 (mem_map_of_mem member)
    rw [decide_eq_true_eq]
    omega
  rw [none, all, nil_append]

def reported (search : DescriptorSearch Data) (pairs : List (Nat × BtUuid)) :
    List FoundAttr :=
  match search.params.uuid with
  | none => (descriptors false pairs).map found
  | some _ => (pairs.filter fun pair => search.params.passes pair.2).map found

structure Underway (search : DescriptorSearch Data) (discovery : Discovery) :
    Prop where
  pending : discovery.pending = .request
  type : discovery.params.type = .descriptor
  uuid : discovery.params.uuid = search.params.uuid
  endHandle : discovery.params.endHandle = search.params.endHandle

theorem begin_underway (search : DescriptorSearch Data) :
    search.Underway search.params.begin :=
  ⟨rfl, search.type, rfl, rfl⟩

variable {pairs : List (Nat × BtUuid)}

section

variable {discovery : Discovery} (underway : search.Underway discovery)
include underway

theorem infoEntries_reported (pairs : List (Nat × BtUuid)) :
    (infoEntries discovery.params false pairs).filterMap DiscoverEntry.reports =
      search.reported pairs := by
  have passes : discovery.params.passes = search.params.passes := by
    funext uuid
    unfold DiscoverParams.passes
    rw [underway.uuid]
  unfold reported
  cases filter : search.params.uuid with
  | none =>
    exact infoEntries_reports underway.type (underway.uuid.trans filter) false pairs
  | some wanted =>
    obtain ⟨plain, noValue⟩ := search.filtered wanted filter
    rw [infoEntries_filtered (underway.uuid.trans filter) plain noValue, passes]

theorem answered_refused (len : Nat) :
    discovery.answered keepGoing (answer [] len) =
      { discovery with pending := .nothing }.finished := by
  unfold Discovery.answered
  rw [underway.pending]
  rfl

theorem answered_info {len : Nat} (info : InfoPairs len pairs) (some : pairs ≠ []) :
    discovery.answered keepGoing (answer pairs len) =
      { discovery with
        pending := .nothing
        calls := discovery.calls ++ search.reported pairs }.discoverNext true
          ((pairs.map Prod.fst).getLastD 0) := by
  have length := infoRsp_length info.sizes
  have short := info.short
  have decoded : discovery.params.decode (.ofList (infoRsp len pairs)) =
      ⟨infoEntries discovery.params false pairs, .resume⟩ := by
    unfold DiscoverParams.decode
    rw [underway.type]
    exact decodeInfo_rsp info some _
  have parsed := @DiscoverParams.parse_eq keepGoing discovery.params
    (.ofList (infoRsp len pairs))
    (by change 1 ≤ (infoRsp len pairs).length; omega)
    (by change (infoRsp len pairs).length < 2 ^ 16; omega)
    (by rw [underway.type]; intro other; cases other) discovery.calls
  have accepted : ∀ calls attrs, Accepts keepGoing calls attrs := by
    intro calls attrs
    induction attrs generalizing calls with
    | nil => trivial
    | cons attr rest ih => exact ⟨rfl, ih _⟩
  have passable : Passable keepGoing discovery.calls
      (infoEntries discovery.params false pairs) :=
    ⟨infoEntries_handles false pairs, accepted _ _⟩
  rw [decoded] at parsed
  rw [walkEntries_passable passable, infoEntries_reported underway,
    infoEntries_last] at parsed
  unfold Discovery.answered answer
  rw [underway.pending, if_neg some]
  simp only [parsed]
  rfl

theorem answered_cases {response : Response}
    (allowed : search.Allowed discovery response) :
    let next := machine.next discovery response
    next.calls = discovery.calls ++ search.reported response.pairs ∧
      ((next.pending = .nothing ∧ response.pairs =
          search.inRange discovery.params.startHandle search.params.endHandle) ∨
        (search.Underway next ∧
          search.inRange discovery.params.startHandle search.params.endHandle =
            response.pairs ++ search.inRange next.params.startHandle
                search.params.endHandle)) := by
  obtain ⟨len, pairs⟩ := response
  obtain ⟨_, prefixed, nonempty, info⟩ := allowed
  rw [underway.endHandle] at prefixed nonempty
  have went : machine.next discovery ⟨len, pairs⟩ =
      discovery.answered keepGoing (answer pairs len) := rfl
  by_cases none : pairs = []
  · subst none
    rw [went, answered_refused underway]
    have reported : search.reported [] = [] := by
      unfold reported
      split
      · rfl
      · rfl
    exact ⟨by rw [reported, append_nil]; rfl, .inl ⟨rfl, (nonempty rfl).symm⟩⟩
  · obtain ⟨_, split⟩ := prefixed
    have rest := inRange_next split.symm none
    rw [went, answered_info underway info none]
    obtain ⟨_, last, whole⟩ := (eq_nil_or_concat' pairs).resolve_left none
    have end_eq : (pairs.map Prod.fst).getLastD 0 = last.1 := by
      rw [whole]
      simp [getLastD_eq_getLast?]
    have within : last ∈ search.inRange discovery.params.startHandle
        search.params.endHandle := by
      rw [← split, whole]
      simp
    have bounds := inRange_bounds within
    rw [end_eq] at rest ⊢
    have past : ∀ endHandle, endHandle < last.1 + 1 →
        search.inRange (last.1 + 1) endHandle = [] := by
      intro endHandle beyond
      rw [eq_nil_iff_forall_not_mem]
      intro pair member
      have inside := inRange_bounds member
      omega
    unfold Discovery.discoverNext
    rw [if_neg (by omega)]
    by_cases further : last.1 < 2 ^ 16 - 1
    · rw [if_pos further]
      by_cases beyond : discovery.params.endHandle < last.1 + 1
      · simp only [if_pos beyond]
        refine ⟨rfl, .inl ⟨rfl, ?_⟩⟩
        rw [underway.endHandle] at beyond
        rw [← split, ← rest, past _ beyond, append_nil]
      · simp only [if_neg beyond]
        refine ⟨rfl, .inr ⟨⟨rfl, underway.type, underway.uuid,
          underway.endHandle⟩, ?_⟩⟩
        rw [← split, ← rest]
        rfl
    · rw [if_neg further]
      refine ⟨rfl, .inl ⟨rfl, ?_⟩⟩
      have limit := search.end_lt
      rw [← split, ← rest, past _ (by omega), append_nil]

theorem run_served {responses : List Response}
    (allowed : machine.Along search.Allowed discovery responses)
    (ended : (machine.run discovery responses).pending = .nothing) :
    (machine.run discovery responses).calls =
        discovery.calls ++ responses.flatMap (fun response =>
          search.reported response.pairs) ∧ responses.flatMap Response.pairs =
        search.inRange discovery.params.startHandle search.params.endHandle := by
  induction responses generalizing discovery with
  | nil =>
    rw [Machine.run_nil, underway.pending] at ended
    cases ended
  | cons response rest ih =>
    obtain ⟨here, later⟩ := allowed
    obtain ⟨calls, ⟨past, whole⟩ | ⟨onward, split⟩⟩ := answered_cases underway here
    · have none : rest = [] := by
        cases rest with
        | nil => rfl
        | cons =>
          have asked := later.1.asked
          rw [past] at asked
          cases asked
      subst none
      simp only [Machine.run_cons, Machine.run_nil, flatMap_cons,
        flatMap_nil, append_nil]
      exact ⟨calls, whole⟩
    · obtain ⟨reported, remaining⟩ := ih onward later ended
      rw [Machine.run_cons, reported, calls, append_assoc,
        flatMap_cons, flatMap_cons, remaining, split]
      exact ⟨rfl, rfl⟩

end

theorem infoPairs_nil : InfoPairs 4 [] where
  sizes := nofun
  handles := nofun
  short := by decide

theorem found_injective : Function.Injective found := by
  rintro ⟨_, _⟩ ⟨_, _⟩ same
  cases same
  rfl

theorem append_eq_iff {Item : Type} {own : Item → Bool}
    {left right left' right' : List Item}
    (inLeft : ∀ item ∈ left, own item = true)
    (inRight : ∀ item ∈ right, own item = true)
    (outLeft : ∀ item ∈ left', own item = false)
    (outRight : ∀ item ∈ right', own item = false) :
    left ++ left' = right ++ right' ↔ left = right ∧ left' = right' := by
  constructor
  · intro same
    have filtered := congrArg (filter own) same
    rw [filter_append, filter_append,
      filter_eq_self.mpr inLeft, filter_eq_self.mpr inRight,
      filter_eq_nil_iff.mpr (fun item member => by simp [outLeft item member]),
      filter_eq_nil_iff.mpr (fun item member => by simp [outRight item member]),
      append_nil, append_nil] at filtered
    subst filtered
    exact ⟨rfl, append_cancel_left same⟩
  · rintro ⟨rfl, rfl⟩
    rfl

theorem reported_iff (flag : Bool)
    (ascending : (pairs.map Prod.fst).Pairwise (· < ·)) : search.reported pairs =
        ((descriptors flag pairs).filter fun pair =>
          search.params.passes pair.2).map found ↔ search.Settled flag pairs := by
  unfold reported Settled
  cases filter : search.params.uuid with
  | none =>
    have all : (descriptors flag pairs).filter (fun pair =>
        search.params.passes pair.2) = descriptors flag pairs := by
      rw [filter_eq_self]
      intro pair _
      unfold DiscoverParams.passes
      rw [filter]
      rfl
    rw [all, found_injective.list_map.eq_iff]
    cases flag with
    | true => exact ⟨fun same _ => same.symm, fun same => (same rfl).symm⟩
    | false => exact ⟨fun _ flag => Bool.noConfusion flag, fun _ => rfl⟩
  | some =>
    rw [found_injective.list_map.eq_iff]
    constructor
    · intro same pair member passed
      have inFilter : pair ∈ pairs.filter fun pair =>
          search.params.passes pair.2 :=
        mem_filter.mpr ⟨member, passed⟩
      rw [same] at inFilter
      exact (mem_filter.mp inFilter).1
    · intro settled
      have distinct : (pairs.filter fun pair =>
          search.params.passes pair.2).Nodup :=
        (List.Nodup.of_map Prod.fst (ascending.imp ne_of_lt)).filter _
      have sublist := (descriptors_sublist flag pairs).filter fun pair =>
        search.params.passes pair.2
      have subset : (pairs.filter fun pair => search.params.passes pair.2) ⊆
          (descriptors flag pairs).filter fun pair =>
            search.params.passes pair.2 := by
        intro pair member
        obtain ⟨listed, passed⟩ := mem_filter.mp member
        exact mem_filter.mpr ⟨settled pair listed passed, passed⟩
      exact (sublist.eq_of_length_le
        (subperm_of_subset distinct subset).length_le).symm

theorem reported_handles {attr : FoundAttr}
    (member : attr ∈ search.reported pairs) :
    attr.handle ∈ pairs.map Prod.fst := by
  unfold reported at member
  split at member
  · obtain ⟨pair, listed, rfl⟩ := mem_map.mp member
    exact mem_map_of_mem ((descriptors_sublist false pairs).subset listed)
  · obtain ⟨pair, listed, rfl⟩ := mem_map.mp member
    exact mem_map_of_mem (mem_filter.mp listed).1

theorem wanted_handles {flag : Bool} {attr : FoundAttr}
    (member : attr ∈ ((descriptors flag pairs).filter fun pair =>
      search.params.passes pair.2).map found) :
    attr.handle ∈ pairs.map Prod.fst := by
  obtain ⟨pair, listed, rfl⟩ := mem_map.mp member
  exact mem_map_of_mem
    ((descriptors_sublist flag pairs).subset (mem_filter.mp listed).1)

theorem reportedAll_iff (flag : Bool) {responses : List Response}
    (ascending : ((responses.flatMap Response.pairs).map Prod.fst).Pairwise
      (· < ·)) :
    (responses.flatMap fun response => search.reported response.pairs) =
        ((descriptors flag (responses.flatMap Response.pairs)).filter fun pair =>
          search.params.passes pair.2).map found ↔
      search.SettledAll flag responses := by
  induction responses generalizing flag with
  | nil =>
    cases flag with
    | true => exact ⟨fun _ => trivial, fun _ => rfl⟩
    | false => exact ⟨fun _ => trivial, fun _ => rfl⟩
  | cons response rest ih =>
    rw [flatMap_cons, map_append, pairwise_append] at ascending
    obtain ⟨here, later, apart⟩ := ascending
    have outside : ∀ attr : FoundAttr,
        attr.handle ∈ (rest.flatMap Response.pairs).map Prod.fst →
        decide (attr.handle ∈ response.pairs.map Prod.fst) = false := by
      intro attr behind
      rw [decide_eq_false_iff_not]
      intro own
      exact lt_irrefl _ (apart _ own _ behind)
    have reportedOut : ∀ attr ∈ rest.flatMap fun response =>
        search.reported response.pairs,
        decide (attr.handle ∈ response.pairs.map Prod.fst) = false := by
      intro attr member
      obtain ⟨other, listed, reported⟩ := mem_flatMap.mp member
      obtain ⟨pair, inPairs, handle⟩ := mem_map.mp (reported_handles reported)
      exact outside attr (mem_map.mpr
        ⟨pair, mem_flatMap.mpr ⟨other, listed, inPairs⟩, handle⟩)
    rw [flatMap_cons, flatMap_cons, descriptors_append, filter_append, map_append]
    rw [@append_eq_iff _
      (fun attr => decide (attr.handle ∈ response.pairs.map Prod.fst)) _ _ _ _
      (fun attr member => decide_eq_true (reported_handles member))
      (fun attr member => decide_eq_true (wanted_handles member)) reportedOut
      (fun attr member => outside attr (wanted_handles member))]
    rw [reported_iff flag here, ih _ later]
    rfl

theorem split_at (ascending : (pairs.map Prod.fst).Pairwise (· < ·)) (limit : Nat) :
    pairs = (pairs.filter fun pair => decide (pair.1 < limit)) ++
      pairs.filter fun pair => decide (limit ≤ pair.1) := by
  induction pairs with
  | nil => rfl
  | cons pair rest ih =>
    obtain ⟨above, later⟩ := pairwise_cons.mp ascending
    by_cases below : pair.1 < limit
    · rw [filter_cons_of_pos (by simpa using below),
        filter_cons_of_neg (by simpa using below), cons_append]
      congr 1
      exact ih later
    · have none : (pair :: rest).filter (fun pair =>
          decide (pair.1 < limit)) = [] := by
        rw [filter_eq_nil_iff]
        intro other member beneath
        rw [decide_eq_true_eq] at beneath
        rcases mem_cons.mp member with rfl | behind
        · omega
        · have higher := above other.1 (mem_map_of_mem behind)
          omega
      have all : (pair :: rest).filter (fun pair =>
          decide (limit ≤ pair.1)) = pair :: rest := by
        rw [filter_eq_self]
        intro other member
        rw [decide_eq_true_eq]
        rcases mem_cons.mp member with rfl | behind
        · omega
        · have higher := above other.1 (mem_map_of_mem behind)
          omega
      rw [none, all, nil_append]

theorem attrs_split (search : DescriptorSearch Data) :
    search.attrs = (search.attrs.filter fun pair =>
        decide (pair.1 < search.params.startHandle)) ++
        (search.inRange search.params.startHandle search.params.endHandle ++
          search.attrs.filter fun pair =>
            decide (search.params.endHandle < pair.1)) := by
  have ascending := search.attrs_ascending
  have order := search.order
  have behind : ((search.attrs.filter fun pair =>
      decide (search.params.startHandle ≤ pair.1)).map Prod.fst).Pairwise
        (· < ·) := ascending.sublist (filter_sublist.map _)
  have first := split_at ascending search.params.startHandle
  have second := split_at behind (search.params.endHandle + 1)
  have inside : (search.attrs.filter fun pair =>
      decide (search.params.startHandle ≤ pair.1)).filter (fun pair =>
        decide (pair.1 < search.params.endHandle + 1)) =
      search.inRange search.params.startHandle search.params.endHandle := by
    rw [filter_filter]
    apply filter_congr
    intro pair _
    rw [Bool.eq_iff_iff]
    simp only [Bool.and_eq_true, decide_eq_true_eq]
    omega
  have past : (search.attrs.filter fun pair =>
      decide (search.params.startHandle ≤ pair.1)).filter (fun pair =>
        decide (search.params.endHandle + 1 ≤ pair.1)) =
      search.attrs.filter fun pair =>
        decide (search.params.endHandle < pair.1) := by
    rw [filter_filter]
    apply filter_congr
    intro pair _
    rw [Bool.eq_iff_iff]
    simp only [Bool.and_eq_true, decide_eq_true_eq]
    omega
  rw [inside, past] at second
  rw [← second]
  exact first

theorem wanted_eq (search : DescriptorSearch Data) :
    search.wanted = ((descriptors search.flagged
        (search.inRange search.params.startHandle
          search.params.endHandle)).filter fun pair =>
            search.params.passes pair.2).map found := by
  have order := search.order
  have whole := congrArg (descriptors false) search.attrs_split
  rw [descriptors_append, descriptors_append] at whole
  have before : (descriptors false (search.attrs.filter fun pair =>
      decide (pair.1 < search.params.startHandle))).filter (fun pair =>
        decide (search.params.startHandle ≤ pair.1) &&
          decide (pair.1 ≤ search.params.endHandle)) = [] := by
    rw [filter_eq_nil_iff]
    intro pair member within
    have below := (mem_filter.mp ((descriptors_sublist _ _).subset member)).2
    rw [Bool.and_eq_true, decide_eq_true_eq] at within
    rw [decide_eq_true_eq] at below
    omega
  have inside : ∀ flag, (descriptors flag (search.inRange search.params.startHandle
        search.params.endHandle)).filter (fun pair =>
          decide (search.params.startHandle ≤ pair.1) &&
            decide (pair.1 ≤ search.params.endHandle)) =
      descriptors flag (search.inRange search.params.startHandle
        search.params.endHandle) := by
    intro flag
    rw [filter_eq_self]
    intro pair member
    have bounds := inRange_bounds ((descriptors_sublist _ _).subset member)
    rw [Bool.and_eq_true, decide_eq_true_eq, decide_eq_true_eq]
    exact bounds.2
  have behind : ∀ flag, (descriptors flag (search.attrs.filter fun pair =>
      decide (search.params.endHandle < pair.1))).filter (fun pair =>
        decide (search.params.startHandle ≤ pair.1) &&
          decide (pair.1 ≤ search.params.endHandle)) = [] := by
    intro flag
    rw [filter_eq_nil_iff]
    intro pair member within
    have above := (mem_filter.mp ((descriptors_sublist _ _).subset member)).2
    rw [Bool.and_eq_true, decide_eq_true_eq, decide_eq_true_eq] at within
    rw [decide_eq_true_eq] at above
    omega
  unfold wanted
  rw [whole, filter_append, before, nil_append, filter_append,
    inside, behind, append_nil]
  rfl

/-- A discovery reports the descriptors of the range just where no response makes
a difference between a value and a descriptor that its start hides. -/
theorem discover_descriptors_iff (search : DescriptorSearch Data)
    {responses : List Response} (served : search.Served responses) :
    search.Reports responses ↔ search.SettledAll search.flagged responses := by
  obtain ⟨calls, whole⟩ := run_served search.begin_underway served.allowed
    served.ended
  unfold Reports
  have ascending := @search.inRange_ascending _ search.params.startHandle
    search.params.endHandle
  rw [calls, wanted_eq]
  change [] ++ _ = _ ↔ _
  have range : search.inRange search.params.begin.params.startHandle
      search.params.endHandle =
      search.inRange search.params.startHandle search.params.endHandle := rfl
  rw [range] at whole
  rw [nil_append, ← whole]
  rw [← whole] at ascending
  exact reportedAll_iff search.flagged ascending

end DescriptorSearch

def chrcPairs : List (Nat × BtUuid) :=
  [(1, .gattPrimary), (2, .gattChrc), (3, .uuid16 0x2A00#16), (4, .gattCcc),
    (5, .gattChrc), (6, .uuid16 0x2A01#16)]

def chrcAttr (uuid : BtUuid) : GattAttr Nat := ⟨uuid, 0, 0, zero_handle_lt⟩

theorem chrcPairs_fit : ([chrcPairs.map fun pair => chrcAttr pair.2] :
      List (List (GattAttr Nat))).flatten.length < 2 ^ 16 := by decide

theorem gattService_nonempty : [chrcAttr .gatt] ≠ [] := by decide

def chrcDb : GattDb Nat where
  static := ⟨[chrcPairs.map fun pair => chrcAttr pair.2], chrcPairs_fit⟩
  object := fun _ => ⟨[chrcAttr .gatt], gattService_nonempty⟩
  db := []

theorem chrcDb_sorted : chrcDb.Sorted where
  aboveStatic := by decide
  ascending := by decide
  apart := by decide

theorem chrcDb_sized :
    ∀ entry ∈ chrcDb.attributes, infoSize entry.1.uuid ≠ none := by decide

def chrcSearch : DescriptorSearch Nat where
  database := chrcDb
  sorted := chrcDb_sorted
  sized := chrcDb_sized
  params := ⟨.descriptor, none, 1, 0xffff, 0, 0⟩
  type := rfl
  filtered := nofun
  start_pos := Nat.one_pos
  order := Nat.le_add_left 1 0xfffe
  end_lt := Nat.lt_succ_self 0xffff

namespace DescriptorSearch

theorem chrcSearch_whole :
    chrcSearch.Served [⟨4, chrcPairs⟩, ⟨4, []⟩] where
  allowed := by
    refine ⟨⟨rfl, by decide, by decide, ⟨by decide, by decide, by decide⟩⟩,
      ⟨rfl, by decide, by decide, infoPairs_nil⟩, trivial⟩
  ended := by decide

theorem discover_descriptors_iff_whole :
    chrcSearch.Served [⟨4, chrcPairs⟩, ⟨4, []⟩] ∧
      (chrcSearch.Reports [⟨4, chrcPairs⟩, ⟨4, []⟩] ↔
        chrcSearch.SettledAll chrcSearch.flagged [⟨4, chrcPairs⟩, ⟨4, []⟩]) :=
  ⟨chrcSearch_whole, discover_descriptors_iff chrcSearch chrcSearch_whole⟩

theorem discover_descriptors_split : chrcSearch.Served
        [⟨4, chrcPairs.take 5⟩, ⟨4, chrcPairs.drop 5⟩, ⟨4, []⟩] ∧
      ¬ chrcSearch.Reports
        [⟨4, chrcPairs.take 5⟩, ⟨4, chrcPairs.drop 5⟩, ⟨4, []⟩] := by
  refine ⟨⟨?_, by decide⟩, by unfold Reports; decide⟩
  refine ⟨⟨rfl, by decide, by decide, ⟨by decide, by decide, by decide⟩⟩,
    ⟨rfl, by decide, by decide, ⟨by decide, by decide, by decide⟩⟩,
    ⟨rfl, by decide, by decide, infoPairs_nil⟩, trivial⟩

end DescriptorSearch

end ZephyrBluetooth.Host
