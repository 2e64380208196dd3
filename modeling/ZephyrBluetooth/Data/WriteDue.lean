import ZephyrBluetooth.Data.WriteBehind

namespace ZephyrBluetooth.Data

open Function Option Prod

/-! Entries that are changed at one time and stored at another.  A record written
behind the table follows its entry once the entry has been stored, and may be late
while the entry has changed since. -/

universe u v

inductive Standing where
  | unstored
  | changed
  | stored
  deriving DecidableEq

def Standing.touched : Standing → Standing
  | .unstored => .unstored
  | .changed => .changed
  | .stored => .changed

section Tracking

variable {Idx : Type u} {Record : Type v}

def followed (live : Idx → Option Record) (standing : Idx → Standing)
    (idx : Idx) : Option (Record × Bool) :=
  match standing idx with
  | .unstored => none
  | .changed => (live idx).map fun record => (record, true)
  | .stored => (live idx).map fun record => (record, false)

def FollowsEntry (entry : Record × Bool) (record : Record) : Prop :=
  entry.2 = true ∨ record = entry.1

theorem FollowsEntry.self (entry : Record × Bool) : FollowsEntry entry entry.1 :=
  .inr rfl

/-- `live` is the table, seen as the records that its entries would have. -/
def WriteBehind.Tracks (scope : Idx → Prop) (live : Idx → Option Record)
    (standing : Idx → Standing) (behind : WriteBehind Idx Record) : Prop :=
  behind.Coherent FollowsEntry scope (followed live standing)

variable {scope : Idx → Prop} {live : Idx → Option Record}
variable {standing : Idx → Standing} {behind : WriteBehind Idx Record}
variable {idx : Idx} {record old : Record}

theorem followed_absent (absent : live idx = none) :
    followed live standing idx = none := by
  unfold followed
  cases standing idx <;> simp [absent]

theorem followed_live {entry : Record × Bool}
    (here : followed live standing idx = some entry) :
    live idx = some entry.1 := by
  unfold followed at here
  cases stood : standing idx with
  | unstored => simp [stood] at here
  | changed =>
    simp only [stood] at here
    obtain ⟨record, found, rfl⟩ := map_eq_some_iff.mp here
    exact found
  | stored =>
    simp only [stood] at here
    obtain ⟨record, found, rfl⟩ := map_eq_some_iff.mp here
    exact found

theorem WriteBehind.Tracks.live_of_pending {write : PendingWrite Idx}
    (tracks : behind.Tracks scope live standing)
    (member : some write ∈ behind.pending) (stores : write.clear = false) :
    ∃ record, live write.idx = some record := by
  have flagged := tracks.flagged write member
  cases here : followed live standing write.idx with
  | none =>
    rw [flagged.mpr here] at stores
    cases stores
  | some entry => exact ⟨entry.1, followed_live here⟩

theorem WriteBehind.Tracks.empty (idle : ∀ write, some write ∉ behind.pending)
    (blank : ∀ idx, behind.records idx = none) (absent : ∀ idx, live idx = none) :
    behind.Tracks scope live standing := by
  apply Coherent.of_rel idle
  intro idx
  rw [followed_absent (absent idx), blank idx]
  exact .none

variable [DecidableEq Idx]

theorem WriteBehind.Tracks.alloc (tracks : behind.Tracks scope live standing)
    (free : live idx = none) : behind.Tracks scope (update live idx (some record))
      (update standing idx .unstored) := by
  have same : followed (update live idx (some record))
      (update standing idx .unstored) = followed live standing := by
    funext other
    by_cases here : other = idx
    · rw [here, followed_absent free]
      simp [followed]
    · simp [followed, update_of_ne here]
  unfold WriteBehind.Tracks
  rw [same]
  exact tracks

theorem WriteBehind.Tracks.change (tracks : behind.Tracks scope live standing)
    (named : live idx = some old) :
    behind.Tracks scope (update live idx (some record))
      (update standing idx (standing idx).touched) := by
  apply WriteBehind.Coherent.renew tracks
  intro other
  by_cases here : other = idx
  · subst here
    unfold followed
    cases stood : standing other with
    | unstored => simpa [stood, Standing.touched] using Renewed.refl none
    | changed =>
      simp only [update_self, Standing.touched, named, map_some]
      exact .some fun _ _ => .inl rfl
    | stored =>
      simp only [update_self, Standing.touched, named, map_some]
      exact .some fun _ _ => .inl rfl
  · simp only [followed, update_of_ne here]
    exact .refl _

section

variable {held : Idx → Idx} {look : Idx → Option Record}
  (tracks : behind.Tracks scope live standing) (small : scope idx)
  (whole : held idx = idx)
include tracks small whole

theorem WriteBehind.Tracks.store (named : live idx = some record)
    (reads : look idx = some record) :
    (behind.note held look ⟨idx, false⟩).Tracks scope live
      (update standing idx .stored) := by
  have after : followed live (update standing idx .stored) idx =
      some (record, false) := by
    simp [followed, named]
  have shown : look = fun other =>
      ((look other).map fun record => (record, false)).map fst := by
    funext other
    cases look other <;> rfl
  rw [shown]
  apply WriteBehind.Coherent.note tracks FollowsEntry.self small whole
  · intro other differs
    simp only [followed, update_of_ne differs]
    exact .refl _
  · rw [after, reads]
    rfl
  · simp [after]

theorem WriteBehind.Tracks.delete :
    (behind.note held look ⟨idx, true⟩).Tracks scope
      (update live idx none) standing := by
  have after : followed (update live idx none) standing idx = none := by
    apply followed_absent
    exact update_self idx none live
  rw [note_clear held look fun _ => (none : Option (Record × Bool)).map fst]
  apply WriteBehind.Coherent.note tracks FollowsEntry.self small whole
  · intro other differs
    simp only [followed, update_of_ne differs]
    exact .refl _
  · rw [after]
  · simp [after]

end

omit [DecidableEq Idx] in
theorem followed_look {look : Idx → Option Record}
    {write : PendingWrite Idx} (tracks : behind.Tracks scope live standing)
    (reads : look write.idx = live write.idx)
    (member : some write ∈ behind.pending) (stores : write.clear = false) :
    ((look write.idx).map fun record =>
        (record, decide (standing write.idx = .changed))) =
      followed live standing write.idx := by
  have flagged := tracks.flagged write member
  rw [reads]
  cases stood : standing write.idx with
  | unstored =>
    have absent : followed live standing write.idx = none := by
      simp [followed, stood]
    rw [flagged.mpr absent] at stores
    cases stores
  | changed => simp [followed, stood]
  | stored => simp [followed, stood]

theorem WriteBehind.Tracks.flush {look : Idx → Option Record}
    (tracks : behind.Tracks scope live standing)
    (reads : ∀ write, some write ∈ behind.pending → write.clear = false →
      look write.idx = live write.idx) :
    (behind.flush look).Tracks scope live standing := by
  have shown : look = fun other =>
      ((look other).map fun record =>
        (record, decide (standing other = .changed))).map fst := by
    funext other
    cases look other <;> rfl
  rw [shown]
  apply WriteBehind.Coherent.flush_coherent tracks FollowsEntry.self
  intro write member stores
  exact followed_look tracks (reads write member stores) member stores

omit [DecidableEq Idx] in
theorem WriteBehind.Tracks.settled (tracks : behind.Tracks scope live standing)
    (idle : ∀ write, some write ∉ behind.pending)
    (stored : ∀ idx, (live idx).isSome = true → standing idx = .stored) :
    behind.records = live := by
  funext idx
  have written := tracks.written idx fun write member =>
    absurd member (idle write)
  cases named : live idx with
  | none =>
    rw [followed_absent named] at written
    generalize behind.records idx = found at written
    cases written
    rfl
  | some =>
    have stood := stored idx (by rw [named]; rfl)
    simp only [followed, stood, named, map_some] at written
    generalize behind.records idx = found at written
    cases written with
    | some follows =>
      rcases follows with late | same
      · cases late
      · rw [same]

end Tracking

end ZephyrBluetooth.Data
