import ZephyrBluetooth.Data.First
import ZephyrBluetooth.Data.Machine
import Mathlib.Data.BitVec

namespace ZephyrBluetooth.Host

open Data List Bool Option

variable {handle : BitVec 16}

/-! Links that end before the host has processed their connection complete event:
the priority part of the Disconnection Complete event leaves a mark. -/

/-- A free entry is 0, so the bits above `BT_ACL_HANDLE_MASK` are set. -/
def handleMark (handle : BitVec 16) : BitVec 16 := ~~~0x0fff ||| handle

def connHandleDisconnected (marks : List (BitVec 16)) (handle : BitVec 16) :
    List (BitVec 16) :=
  marks.map fun mark => if mark = 0 then handleMark handle else mark

def connHandleIsDisconnected (marks : List (BitVec 16)) (handle : BitVec 16) :
    Bool × List (BitVec 16) :=
  match changeFirst (fun mark => decide (mark = handleMark handle)) (fun _ => 0)
      marks with
  | some cleared => (true, cleared)
  | none => (false, marks)

/-- Events that wait for the receiving thread.  `gone` tells that the link has
ended since. -/
inductive LinkEvt where
  | connComplete (handle : BitVec 16) (gone : Bool)
  | connFailed (handle : BitVec 16)
  | disconnComplete (status : BitVec 8) (handle : BitVec 16)
  deriving DecidableEq

namespace LinkEvt

def goneAt (mark : BitVec 16) : LinkEvt → Bool
  | connComplete handle gone => gone && decide (handleMark handle = mark)
  | _ => false

def waitsAt (mark : BitVec 16) : LinkEvt → Bool
  | connComplete handle gone => !gone && decide (handleMark handle = mark)
  | _ => false

end LinkEvt

/-- `conns` has the handles of the connection objects with a valid one, `live`
those of the links of the controller. -/
structure LinkEvts where
  marks : List (BitVec 16)
  conns : List (BitVec 16)
  queue : List LinkEvt
  live : List (BitVec 16)

inductive LinkInput where
  | create (handle : BitVec 16)
  | fail (handle : BitVec 16)
  | disconnect (status : BitVec 8) (handle : BitVec 16)
  | process (found : Bool)

structure LinkConnected where
  isDisconnected : Bool
  gone : Bool
  deriving DecidableEq

namespace LinkEvts

def init (maxConn : Nat) : LinkEvts where
  marks := List.replicate maxConn 0
  conns := []
  queue := []
  live := []

variable (state : LinkEvts)

def uses (handle : BitVec 16) : Bool :=
  state.live.any fun other => decide (handleMark other = handleMark handle)

def hciDisconnCompletePrio (status : BitVec 8) (handle : BitVec 16) :
    List (BitVec 16) :=
  if status ≠ 0 then state.marks
  else if handle ∈ state.conns then state.marks
  else connHandleDisconnected state.marks handle

def ended (handle : BitVec 16) : List LinkEvt :=
  (changeFirst (fun evt => decide (evt = .connComplete handle false))
    (fun _ => .connComplete handle true) state.queue).getD state.queue

/-- The controller sends an event, the priority part of which is handled at
once, or the receiving thread handles the next one; `found` tells that a
connection object is pending for the peer. -/
def step : LinkInput → LinkEvts × List LinkConnected
  | .create handle =>
    if state.uses handle then (state, [])
    else ({ state with
      queue := state.queue ++ [.connComplete handle false]
      live := handle :: state.live }, [])
  | .fail handle => ({ state with queue := state.queue ++ [.connFailed handle] }, [])
  | .disconnect status handle =>
    if status ≠ 0 then
      ({ state with queue := state.queue ++ [.disconnComplete status handle] }, [])
    else if handle ∈ state.live then
      ({ state with
        marks := state.hciDisconnCompletePrio status handle
        queue := state.ended handle ++ [.disconnComplete status handle]
        live := state.live.erase handle }, [])
    else (state, [])
  | .process found =>
    match state.queue with
    | [] => (state, [])
    | .connComplete handle gone :: rest =>
      let (isDisconnected, marks) := connHandleIsDisconnected state.marks handle
      if found then
        ({ state with marks, queue := rest, conns := handle :: state.conns },
          [⟨isDisconnected, gone⟩])
      else ({ state with marks, queue := rest }, [])
    | .connFailed handle :: rest =>
      ({ state with
        marks := (connHandleIsDisconnected state.marks handle).2
        queue := rest }, [])
    | .disconnComplete status handle :: rest =>
      if status ≠ 0 then ({ state with queue := rest }, [])
      else ({ state with queue := rest, conns := state.conns.erase handle }, [])

def owed (mark : BitVec 16) : Nat :=
  state.queue.countP (·.goneAt mark)

/-- A link is created while no mark is left over for its handle; one that ends
early finds a free entry, and no connection object left with its handle; a
failed connection does not have the handle of one that ended early. -/
def Marked : LinkInput → Prop
  | .create handle =>
    state.uses handle = false →
      state.marks.count (handleMark handle) = state.owed (handleMark handle)
  | .disconnect status handle =>
    status = 0 → .connComplete handle false ∈ state.queue →
      handle ∉ state.conns ∧ 0 ∈ state.marks
  | .process _ =>
    ∀ handle, state.queue.head? = some (.connFailed handle) →
      state.owed (handleMark handle) = 0
  | .fail _ => True

end LinkEvts

def linkEvtsMachine : Machine LinkEvts LinkInput LinkConnected :=
  ⟨LinkEvts.step⟩

theorem handleMark_ne_zero (handle : BitVec 16) : handleMark handle ≠ 0 := by
  intro zero
  have bit := congrArg (fun mark => mark.getLsbD 15) zero
  unfold handleMark at bit
  simp at bit

theorem connHandleIsDisconnected_eq (marks : List (BitVec 16))
    (handle : BitVec 16) :
    (connHandleIsDisconnected marks handle).1 =
        decide (0 < marks.count (handleMark handle)) ∧
      ∀ mark ≠ 0, (connHandleIsDisconnected marks handle).2.count mark =
        marks.count mark - if mark = handleMark handle then 1 else 0 := by
  unfold connHandleIsDisconnected
  cases found : changeFirst (fun mark => decide (mark = handleMark handle))
      (fun _ => 0) marks with
  | none =>
    have missing := changeFirst_missing found
    refine ⟨by rw [missing]; rfl, fun mark _ => ?_⟩
    simp only
    by_cases same : mark = handleMark handle
    · rw [same, missing, Nat.zero_sub]
    · rw [if_neg same, Nat.sub_zero]
  | some cleared =>
    have own := count_changeFirst (handleMark_ne_zero handle) found
    rw [if_pos rfl] at own
    refine ⟨(decide_eq_true (by omega)).symm, fun mark set => ?_⟩
    have counted := count_changeFirst set found
    simp only
    omega

namespace LinkEvts

structure Sound (state : LinkEvts) : Prop where
  marked : ∀ mark ≠ 0, state.owed mark ≤ state.marks.count mark
  spared : ∀ mark ≠ 0, ∀ evt ∈ state.queue, evt.waitsAt mark = true →
    state.marks.count mark ≤ state.owed mark
  ordered : state.queue.Pairwise fun evt later => ∀ mark, evt.waitsAt mark = true →
    later.goneAt mark = false ∧ later.waitsAt mark = false
  live : ∀ handle, .connComplete handle false ∈ state.queue → handle ∈ state.live
  distinct : (state.live.map handleMark).Nodup

variable {state : LinkEvts} {evt : LinkEvt}

theorem waitsAt_iff {mark : BitVec 16} : evt.waitsAt mark = true ↔
      ∃ handle, evt = .connComplete handle false ∧ handleMark handle = mark := by
  cases evt with
  | connComplete handle gone => cases gone <;> simp [LinkEvt.waitsAt]
  | connFailed => simp [LinkEvt.waitsAt]
  | disconnComplete => simp [LinkEvt.waitsAt]

section

variable (sound : state.Sound)
include sound

theorem Sound.same_of_live {other : BitVec 16} (left : handle ∈ state.live)
    (right : other ∈ state.live) (same : handleMark handle = handleMark other) :
    handle = other :=
  inj_on_of_nodup_map sound.distinct left right same

theorem Sound.push
    (passive : ∀ mark, evt.goneAt mark = false ∧ evt.waitsAt mark = false) :
    Sound { state with queue := state.queue ++ [evt] } := by
  have owed : ∀ mark, LinkEvts.owed { state with queue := state.queue ++ [evt] }
      mark = state.owed mark := by
    intro mark
    unfold LinkEvts.owed
    simp [(passive mark).1]
  refine ⟨?_, ?_, ?_, ?_, sound.distinct⟩
  · intro mark set
    rw [owed]
    exact sound.marked mark set
  · intro mark set other member waits
    rw [owed]
    rcases mem_append.mp member with before | new
    · exact sound.spared mark set other before waits
    · rw [mem_singleton.mp new, (passive mark).2] at waits
      cases waits
  · refine pairwise_append.mpr ⟨sound.ordered, pairwise_singleton _ _, ?_⟩
    intro other _ new member mark _
    rw [mem_singleton.mp member]
    exact passive mark
  · intro handle member
    rcases mem_append.mp member with before | new
    · exact sound.live handle before
    · have waits := (passive (handleMark handle)).2
      rw [← mem_singleton.mp new] at waits
      simp [LinkEvt.waitsAt] at waits

theorem Sound.create (unused : state.uses handle = false)
    (clean : state.marks.count (handleMark handle) = state.owed (handleMark handle)) :
    Sound { state with
      queue := state.queue ++ [.connComplete handle false]
      live := handle :: state.live } := by
  have fresh : ∀ other ∈ state.live, handleMark other ≠ handleMark handle := by
    intro other member same
    exact any_eq_false.mp unused other member (decide_eq_true same)
  have owed : ∀ mark, LinkEvts.owed { state with
      queue := state.queue ++ [.connComplete handle false]
      live := handle :: state.live } mark = state.owed mark := by
    intro mark
    unfold LinkEvts.owed
    simp [LinkEvt.goneAt]
  refine ⟨?_, ?_, ?_, ?_, ?_⟩
  · intro mark set
    rw [owed]
    exact sound.marked mark set
  · intro mark set evt member waits
    rw [owed]
    rcases mem_append.mp member with before | new
    · exact sound.spared mark set evt before waits
    · obtain ⟨other, same, rfl⟩ := waitsAt_iff.mp waits
      cases (mem_singleton.mp new).symm.trans same
      exact le_of_eq clean
  · refine pairwise_append.mpr ⟨sound.ordered, pairwise_singleton _ _, ?_⟩
    intro evt before new member mark waits
    obtain ⟨other, rfl, rfl⟩ := waitsAt_iff.mp waits
    rw [mem_singleton.mp member]
    refine ⟨rfl, ?_⟩
    simp [LinkEvt.waitsAt, (fresh other (sound.live other before)).symm]
  · intro other member
    rcases mem_append.mp member with before | new
    · exact mem_cons_of_mem _ (sound.live other before)
    · cases mem_singleton.mp new
      exact mem_cons_self
  · rw [map_cons, nodup_cons]
    refine ⟨fun member => ?_, sound.distinct⟩
    obtain ⟨other, live, same⟩ := mem_map.mp member
    exact fresh other live same

theorem Sound.endsLate (live : handle ∈ state.live)
    (late : .connComplete handle false ∉ state.queue) (conns : Bool) :
    Sound { state with
      marks := if conns then state.marks
        else connHandleDisconnected state.marks handle
      live := state.live.erase handle } := by
  have absent : ∀ evt ∈ state.queue, evt.waitsAt (handleMark handle) = false := by
    intro evt member
    rw [eq_false_iff]
    intro waits
    obtain ⟨other, rfl, same⟩ := waitsAt_iff.mp waits
    rw [sound.same_of_live (sound.live other member) live same] at member
    exact late member
  have counted : ∀ mark ≠ 0, ∃ more, (if conns then state.marks
      else connHandleDisconnected state.marks handle).count mark =
        state.marks.count mark + more ∧ (mark ≠ handleMark handle → more = 0) := by
    intro mark set
    cases conns with
    | true => exact ⟨0, rfl, fun _ => rfl⟩
    | false => exact ⟨_, count_fill _ set, fun differs => if_neg differs⟩
  refine ⟨?_, ?_, sound.ordered, ?_, ?_⟩
  · intro mark set
    obtain ⟨more, count, -⟩ := counted mark set
    simp only [count]
    exact le_trans (sound.marked mark set) (Nat.le_add_right _ _)
  · intro mark set evt member waits
    obtain ⟨more, count, none⟩ := counted mark set
    have differs : mark ≠ handleMark handle := by
      rintro rfl
      exact false_ne_true ((absent evt member).symm.trans waits)
    simp only [count, none differs, add_zero]
    exact sound.spared mark set evt member waits
  · intro other member
    refine (mem_erase_of_ne ?_).mpr (sound.live other member)
    rintro rfl
    exact late member
  · exact sound.distinct.sublist (erase_sublist.map _)

theorem Sound.endsEarly (early : .connComplete handle false ∈ state.queue)
    (free : 0 ∈ state.marks) :
    Sound { state with
      marks := connHandleDisconnected state.marks handle
      queue := state.ended handle
      live := state.live.erase handle } := by
  have some : (changeFirst (fun evt => decide (evt = .connComplete handle false))
      (fun _ => .connComplete handle true) state.queue).isSome = true := by
    rw [changeFirst_isSome]
    exact any_eq_true.mpr ⟨_, early, decide_eq_true rfl⟩
  obtain ⟨queue, found⟩ := isSome_iff_exists.mp some
  have after : state.ended handle = queue := by
    unfold LinkEvts.ended
    rw [found]
    rfl
  obtain ⟨front, item, back, split, tested, -, rfl⟩ := changeFirst_split found
  have own : item = .connComplete handle false := of_decide_eq_true tested
  subst own
  have room : 0 < state.marks.count 0 := count_pos_iff.mpr free
  have ordered := sound.ordered
  rw [split] at ordered
  obtain ⟨ahead, rest, across⟩ := pairwise_append.mp ordered
  obtain ⟨behind, later⟩ := pairwise_cons.mp rest
  have here : (LinkEvt.connComplete handle false).waitsAt (handleMark handle) =
      true := by simp [LinkEvt.waitsAt]
  -- of the links with this mark only the one that ends was waiting
  have alone : ∀ evt, evt ∈ front ∨ evt ∈ back →
      evt.waitsAt (handleMark handle) = false := by
    rintro evt (before | following)
    · rw [eq_false_iff]
      intro waits
      have clash := (across evt before _ mem_cons_self _ waits).2
      exact false_ne_true (clash.symm.trans here)
    · exact (behind evt following _ here).2
  have owed : ∀ mark, LinkEvts.owed { state with
      marks := connHandleDisconnected state.marks handle
      queue := state.ended handle
      live := state.live.erase handle } mark =
        state.owed mark + if mark = handleMark handle then 1 else 0 := by
    intro mark
    unfold LinkEvts.owed
    rw [after, split]
    simp only [countP_append, countP_cons, LinkEvt.goneAt]
    by_cases same : mark = handleMark handle
    · simp [same]
      omega
    · simp [same, Ne.symm same]
  refine ⟨?_, ?_, ?_, ?_, ?_⟩
  · intro mark set
    have before := sound.marked mark set
    rw [owed]
    simp only [connHandleDisconnected, count_fill _ set]
    split <;> omega
  · intro mark set evt member waits
    simp only [after] at member
    have differs : mark ≠ handleMark handle := by
      rintro rfl
      rcases mem_append.mp member with before | member
      · exact false_ne_true ((alone evt (.inl before)).symm.trans waits)
      · rcases mem_cons.mp member with rfl | following
        · simp [LinkEvt.waitsAt] at waits
        · exact false_ne_true ((alone evt (.inr following)).symm.trans waits)
    have before : evt ∈ state.queue := by
      rw [split]
      rcases mem_append.mp member with before | member
      · exact mem_append_left _ before
      · rcases mem_cons.mp member with rfl | following
        · simp [LinkEvt.waitsAt] at waits
        · exact mem_append_right _ (mem_cons_of_mem _ following)
    rw [owed]
    simp only [connHandleDisconnected, count_fill _ set, if_neg differs, add_zero]
    exact sound.spared mark set evt before waits
  · simp only [after]
    refine pairwise_append.mpr ⟨ahead, pairwise_cons.mpr ⟨?_, later⟩, ?_⟩
    · intro evt _ mark waits
      simp [LinkEvt.waitsAt] at waits
    · intro evt before other member mark waits
      rcases mem_cons.mp member with rfl | following
      · refine ⟨?_, rfl⟩
        have differs : handleMark handle ≠ mark := by
          rintro rfl
          exact false_ne_true ((alone evt (.inl before)).symm.trans waits)
        simp [LinkEvt.goneAt, differs]
      · exact across evt before other (mem_cons_of_mem _ following) mark waits
  · intro other member
    simp only [after] at member
    have waiting : (LinkEvt.connComplete other false).waitsAt (handleMark other) =
        true := by simp [LinkEvt.waitsAt]
    have inside : LinkEvt.connComplete other false ∈ front ∨
        LinkEvt.connComplete other false ∈ back := by
      rcases mem_append.mp member with before | member
      · exact .inl before
      · rcases mem_cons.mp member with same | following
        · cases same
        · exact .inr following
    have differs : other ≠ handle := by
      rintro rfl
      exact false_ne_true ((alone _ inside).symm.trans waiting)
    refine (mem_erase_of_ne differs).mpr (sound.live other ?_)
    rw [split]
    rcases inside with before | following
    · exact mem_append_left _ before
    · exact mem_append_right _ (mem_cons_of_mem _ following)
  · exact sound.distinct.sublist (erase_sublist.map _)

theorem Sound.pop {rest : List LinkEvt}
    (head : state.queue = evt :: rest) {marks conns : List (BitVec 16)}
    (counted : ∀ mark ≠ 0, rest.countP (·.goneAt mark) ≤ marks.count mark)
    (spared : ∀ mark ≠ 0, ∀ other ∈ rest, other.waitsAt mark = true →
      marks.count mark ≤ rest.countP (·.goneAt mark)) :
    Sound { state with marks, queue := rest, conns } where
  marked := counted
  spared := spared
  ordered := (pairwise_cons.mp (head ▸ sound.ordered)).2
  live := fun handle member => sound.live handle (by
    rw [head]
    exact mem_cons_of_mem _ member)
  distinct := sound.distinct

/-- The mark of a link that ended early is there when its connection complete
event comes, and no mark when it has not ended. -/
theorem Sound.connComplete {gone : Bool} {rest : List LinkEvt}
    (head : state.queue = .connComplete handle gone :: rest)
    (conns : List (BitVec 16)) :
    (connHandleIsDisconnected state.marks handle).1 = gone ∧
      Sound { state with
        marks := (connHandleIsDisconnected state.marks handle).2
        queue := rest
        conns } := by
  obtain ⟨told, counts⟩ := connHandleIsDisconnected_eq state.marks handle
  have set := handleMark_ne_zero handle
  have marked := sound.marked
  have spared := sound.spared
  have owed : ∀ mark, state.owed mark = rest.countP (·.goneAt mark) +
      if gone = true ∧ mark = handleMark handle then 1 else 0 := by
    intro mark
    unfold LinkEvts.owed
    rw [head, countP_cons]
    congr 1
    cases gone <;> simp [LinkEvt.goneAt, eq_comm]
  have unmarked : gone = false → state.marks.count (handleMark handle) = 0 := by
    rintro rfl
    have waits : (LinkEvt.connComplete handle false).waitsAt (handleMark handle) =
        true := by simp [LinkEvt.waitsAt]
    have none : rest.countP (·.goneAt (handleMark handle)) = 0 := by
      rw [countP_eq_zero]
      intro evt member
      have ordered := sound.ordered
      rw [head] at ordered
      simp [((pairwise_cons.mp ordered).1 evt member _ waits).1]
    have most := spared _ set _ (by rw [head]; exact mem_cons_self) waits
    rw [owed, none] at most
    simpa using most
  constructor
  · rw [told]
    cases gone with
    | false => simp [unmarked rfl]
    | true =>
      have least := marked _ set
      rw [owed, if_pos ⟨rfl, rfl⟩] at least
      exact decide_eq_true (by omega)
  · apply sound.pop head
    · intro mark set
      have least := marked mark set
      rw [owed] at least
      rw [counts mark set]
      by_cases same : mark = handleMark handle
      · cases gone with
        | false =>
          rw [same, unmarked rfl] at least
          rw [same]
          omega
        | true =>
          rw [if_pos ⟨rfl, same⟩] at least
          rw [if_pos same]
          omega
      · rw [if_neg same]
        exact le_trans (Nat.le_add_right _ _) least
    · intro mark set other member waits
      have most := spared mark set other (by
        rw [head]
        exact mem_cons_of_mem _ member) waits
      rw [owed] at most
      rw [counts mark set]
      by_cases same : mark = handleMark handle
      · rw [if_pos same]
        split at most <;> omega
      · rw [if_neg fun own => same own.2] at most
        exact le_trans (Nat.sub_le _ _) most

theorem Sound.step {input : LinkInput} (marked : state.Marked input) :
    (∀ conn ∈ (state.step input).2, conn.isDisconnected = conn.gone) ∧
      (state.step input).1.Sound := by
  cases input with
  | create handle =>
    unfold LinkEvts.step
    simp only
    cases unused : state.uses handle with
    | true => exact ⟨nofun, sound⟩
    | false => exact ⟨nofun, sound.create unused (marked unused)⟩
  | fail => exact ⟨nofun, sound.push fun _ => ⟨rfl, rfl⟩⟩
  | disconnect status handle =>
    unfold LinkEvts.step
    simp only
    by_cases failed : status ≠ 0
    · rw [if_pos failed]
      exact ⟨nofun, sound.push fun _ => ⟨rfl, rfl⟩⟩
    rw [if_neg failed]
    by_cases live : handle ∈ state.live
    · rw [if_pos live]
      refine ⟨nofun, ?_⟩
      by_cases early : .connComplete handle false ∈ state.queue
      · obtain ⟨unknown, free⟩ := marked (not_not.mp failed) early
        have next := sound.endsEarly early free
        unfold hciDisconnCompletePrio
        rw [if_neg failed, if_neg unknown]
        exact next.push fun _ => ⟨rfl, rfl⟩
      · have next := sound.endsLate live early (decide (handle ∈ state.conns))
        have same : state.ended handle = state.queue := by
          have none : changeFirst (fun evt =>
              decide (evt = LinkEvt.connComplete handle false))
                (fun _ => .connComplete handle true) state.queue = none := by
            rw [← not_isSome_iff_eq_none, changeFirst_isSome]
            simpa using early
          unfold ended
          rw [none]
          rfl
        unfold hciDisconnCompletePrio
        rw [if_neg failed, same]
        simp only [decide_eq_true_eq] at next
        exact next.push fun _ => ⟨rfl, rfl⟩
    · rw [if_neg live]
      exact ⟨nofun, sound⟩
  | process found =>
    unfold LinkEvts.step
    simp only
    split
    · exact ⟨nofun, sound⟩
    · rename_i handle gone rest head
      cases found with
      | true =>
        obtain ⟨told, next⟩ := sound.connComplete head (handle :: state.conns)
        refine ⟨?_, next⟩
        intro conn member
        rw [mem_singleton.mp member]
        exact told
      | false => exact ⟨nofun, (sound.connComplete head state.conns).2⟩
    · rename_i handle rest head
      refine ⟨nofun, sound.pop head ?_ ?_⟩
      all_goals
        have none := marked handle (by rw [head]; rfl)
        have counts := (connHandleIsDisconnected_eq state.marks handle).2
        have owed : ∀ mark, state.owed mark = rest.countP (·.goneAt mark) := by
          intro mark
          unfold LinkEvts.owed
          rw [head, countP_cons]
          rfl
      · intro mark set
        have least := sound.marked mark set
        rw [owed] at least none
        rw [counts mark set]
        split
        · rename_i same
          rw [same, none]
          exact Nat.zero_le _
        · exact least
      · intro mark set other member waits
        have most := sound.spared mark set other (by
          rw [head]
          exact mem_cons_of_mem _ member) waits
        rw [owed] at most
        rw [counts mark set]
        exact Nat.le_trans (Nat.sub_le _ _) most
    · rename_i status handle rest head
      have owed : ∀ mark, state.owed mark = rest.countP (·.goneAt mark) := by
        intro mark
        unfold LinkEvts.owed
        rw [head, countP_cons]
        rfl
      have next : ∀ conns, Sound { state with queue := rest, conns } :=
        fun conns => sound.pop head
          (fun mark set => owed mark ▸ sound.marked mark set)
          fun mark set other member waits => owed mark ▸ sound.spared mark set other
            (by rw [head]; exact mem_cons_of_mem _ member) waits
      split
      · exact ⟨nofun, next state.conns⟩
      · exact ⟨nofun, next _⟩

end

end LinkEvts

/-- In a run in which no mark is left over for the handle of a new link, and one
that ends early gets its own, a connection is taken for disconnected exactly when
its link ended before. -/
theorem early_disconnect_marks (maxConn : Nat) (inputs : List LinkInput)
    (along : linkEvtsMachine.Along LinkEvts.Marked (LinkEvts.init maxConn) inputs) :
    ∀ conn ∈ linkEvtsMachine.trace (LinkEvts.init maxConn) inputs,
      conn.isDisconnected = conn.gone := by
  have start : (LinkEvts.init maxConn).Sound :=
    ⟨fun _ _ => Nat.zero_le _, nofun, List.Pairwise.nil, nofun, nodup_nil⟩
  exact Machine.trace_of_along (fun _ _ sound marked => sound.step marked) start along

theorem early_disconnect_marks_two : (LinkEvts.init 2).marks.length = 2 ∧
    ∀ conn ∈ linkEvtsMachine.trace (LinkEvts.init 2)
      [.create 5, .create 6, .disconnect 0 5, .process true, .process true],
        conn.isDisconnected = conn.gone := by
  refine ⟨rfl, ?_⟩
  apply early_disconnect_marks
  refine ⟨fun _ => rfl, fun _ => by decide, fun _ _ => by decide, ?_, ?_, trivial⟩
  · exact nofun
  · exact nofun

theorem early_disconnect_marks_fill :
    linkEvtsMachine.trace (LinkEvts.init 2) [.create 5, .disconnect 0 5,
        .process true, .process true, .create 5, .process true] =
      [⟨true, true⟩, ⟨true, false⟩] ∧
    linkEvtsMachine.trace (LinkEvts.init 2) [.create 5, .create 6,
        .disconnect 0 5, .disconnect 0 6, .process true, .process true] =
      [⟨true, true⟩, ⟨false, true⟩] := by
  decide

end ZephyrBluetooth.Host
