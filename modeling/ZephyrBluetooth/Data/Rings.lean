import Mathlib.Data.List.Nodup
import Mathlib.Logic.Relation

namespace ZephyrBluetooth.Data

open List Option

/-! Items with an optional successor that form rings: following the successors
from an item leads back to it, or the item is alone and has none. -/

universe u

variable {Item : Type u} {items before : List Item} {stop other : Item}

/-- Each item is followed by the next one of the list, and the last by `stop`. -/
def Leads (next : Item → Option Item) : List Item → Item → Prop
  | [], _ => True
  | item :: rest, stop => next item = some (rest.headD stop) ∧ Leads next rest stop

structure RingAt (next : Item → Option Item) (item : Item)
    (others : List Item) : Prop where
  nodup : (item :: others).Nodup
  round : others = [] ∧ next item = none ∨ Leads next (item :: others) item

def Follows (next : Item → Option Item) (item other : Item) : Prop :=
  next item = some other

def Reaches (next : Item → Option Item) : Item → Item → Prop :=
  Relation.ReflTransGen (Follows next)

theorem headD_append (first second : List Item) (stop : Item) :
    (first ++ second).headD stop = first.headD (second.headD stop) := by
  cases first with
  | nil => rfl
  | cons => rfl

theorem leads_append (next : Item → Option Item) (first second : List Item)
    (stop : Item) : Leads next (first ++ second) stop ↔
      Leads next first (second.headD stop) ∧ Leads next second stop := by
  induction first with
  | nil => simp [Leads]
  | cons item rest ih => simp only [cons_append, Leads, ih, headD_append, and_assoc]

theorem Leads.congr {next other : Item → Option Item}
    (same : ∀ item ∈ items, other item = next item) (leads : Leads next items stop) :
    Leads other items stop := by
  induction items with
  | nil => trivial
  | cons item rest ih =>
    obtain ⟨here, later⟩ := leads
    refine ⟨(same item (mem_cons_self ..)).trans here, ?_⟩
    apply ih _ later
    intro further member
    exact same further (mem_cons_of_mem item member)

variable {next : Item → Option Item}

theorem Leads.onward {item second : Item}
    {rest : List Item} (leads : Leads next (item :: second :: rest) stop)
    (before : stop ∉ second :: rest) :
    next item = some second ∧ next item ≠ some stop ∧
      Leads next (second :: rest) stop ∧ stop ∉ rest := by
  obtain ⟨here, later⟩ := leads
  rw [headD_cons] at here
  refine ⟨here, ?_, later, fun member => before (mem_cons_of_mem _ member)⟩
  rw [here, ne_eq, some_inj]
  rintro rfl
  exact before (mem_cons_self ..)

theorem headD_mem (items : List Item) (stop : Item) :
    items.headD stop ∈ items ∨ items.headD stop = stop := by
  cases items with
  | nil => exact .inr rfl
  | cons => exact .inl (mem_cons_self ..)

variable {item : Item}

theorem Leads.next_mem (leads : Leads next items stop) (member : item ∈ items)
    (follows : next item = some other) : other ∈ items ∨ other = stop := by
  induction items with
  | nil => cases member
  | cons first rest ih =>
    obtain ⟨here, later⟩ := leads
    rcases mem_cons.mp member with rfl | further
    · rw [here, some_inj] at follows
      subst follows
      rcases headD_mem rest stop with inside | last
      · exact .inl (mem_cons_of_mem _ inside)
      · exact .inr last
    · rcases ih later further with inside | last
      · exact .inl (mem_cons_of_mem _ inside)
      · exact .inr last

theorem Leads.reaches (leads : Leads next (item :: items) stop)
    (member : other ∈ item :: items) : Reaches next item other := by
  induction items generalizing item with
  | nil =>
    rw [mem_singleton] at member
    subst member
    exact .refl
  | cons second rest ih =>
    obtain ⟨here, later⟩ := leads
    rcases mem_cons.mp member with rfl | further
    · exact .refl
    · exact .head here (ih later further)

variable {others : List Item}

theorem Leads.mem_dropLast_iff (leads : Leads next (item :: others) item)
    (nodup : (item :: others).Nodup) (other : Item) :
    other ∈ (item :: others).dropLast ↔
      other ∈ item :: others ∧ next other ≠ some item := by
  have general : ∀ {first : Item} {rest : List Item},
      Leads next (first :: rest) item → item ∉ rest →
      (other ∈ (first :: rest).dropLast ↔
        other ∈ first :: rest ∧ next other ≠ some item) := by
    intro first rest
    induction rest generalizing first with
    | nil =>
      intro leads _
      have last : next first = some item := leads.1
      simp only [dropLast_singleton, not_mem_nil, mem_singleton,
        false_iff, not_and, not_not]
      rintro rfl
      exact last
    | cons second rest ih =>
      intro leads before
      obtain ⟨_, away, later, restBefore⟩ := leads.onward before
      have tail := ih later restBefore
      rw [dropLast_cons_cons, mem_cons, tail,
        @mem_cons _ first (second :: rest) other]
      constructor
      · rintro (rfl | ⟨member, further⟩)
        · exact ⟨.inl rfl, away⟩
        · exact ⟨.inr member, further⟩
      · rintro ⟨rfl | member, further⟩
        · exact .inl rfl
        · exact .inr ⟨member, further⟩
  exact general leads (nodup_cons.mp nodup).1

theorem Leads.exists_last (leads : Leads next (item :: others) stop) :
    ∃ last ∈ item :: others, next last = some stop := by
  induction others generalizing item with
  | nil => exact ⟨item, mem_cons_self .., leads.1⟩
  | cons second rest ih =>
    obtain ⟨last, member, follows⟩ := ih leads.2
    exact ⟨last, mem_cons_of_mem item member, follows⟩

namespace RingAt

variable {next : Item → Option Item} {item : Item} {others : List Item}

section

variable (ring : RingAt next item others)
include ring

theorem reaches_iff (other : Item) :
    Reaches next item other ↔ other ∈ item :: others := by
  constructor
  · intro reaches
    induction reaches with
    | refl => exact mem_cons_self ..
    | @tail between last _ follows member =>
      rcases ring.round with ⟨alone, free⟩ | leads
      · subst alone
        rw [mem_singleton] at member
        subst member
        rw [Follows, free] at follows
        cases follows
      · rcases leads.next_mem member follows with inside | rfl
        · exact inside
        · exact mem_cons_self ..
  · intro member
    rcases ring.round with ⟨alone, _⟩ | leads
    · subst alone
      rw [mem_singleton] at member
      subst member
      exact .refl
    · exact leads.reaches member

theorem succ_eq : (next item).getD item = others.headD item := by
  rcases ring.round with ⟨alone, free⟩ | ⟨here, _⟩
  · rw [alone, free]
    rfl
  · rw [here]
    rfl

theorem leads_others : Leads next others item := by
  rcases ring.round with ⟨alone, _⟩ | ⟨_, later⟩
  · rw [alone]
    trivial
  · exact later

end

theorem rotate {after : List Item}
    (ring : RingAt next item (before ++ other :: after)) :
    RingAt next other (after ++ item :: before) := by
  have order : (item :: (before ++ other :: after)) =
      (item :: before) ++ (other :: after) := rfl
  refine ⟨?_, .inr ?_⟩
  · have nodup := ring.nodup
    rw [order, nodup_append_comm] at nodup
    exact nodup
  · rcases ring.round with ⟨alone, _⟩ | leads
    · simp at alone
    rw [order, leads_append] at leads
    exact (leads_append next (other :: after) (item :: before) other).mpr
      ⟨leads.2, leads.1⟩

section

variable (ring : RingAt next item others)
include ring

theorem exists_at (member : other ∈ item :: others) :
    ∃ rest, RingAt next other rest ∧
      ∀ further, further ∈ other :: rest ↔ further ∈ item :: others := by
  rcases mem_cons.mp member with rfl | inside
  · exact ⟨others, ring, fun _ => Iff.rfl⟩
  · obtain ⟨before, after, rfl⟩ := append_of_mem inside
    refine ⟨after ++ item :: before, ring.rotate, ?_⟩
    intro further
    grind

theorem apart {seconds : List Item}
    (secondRing : RingAt next other seconds) (outside : other ∉ item :: others) :
    ∀ member ∈ item :: others, member ∉ other :: seconds := by
  intro member inFirst inSecond
  obtain ⟨_, back, same⟩ := secondRing.exists_at inSecond
  have backward : Reaches next member other :=
    (back.reaches_iff other).mpr ((same other).mpr (mem_cons_self ..))
  have forward := (ring.reaches_iff member).mpr inFirst
  exact outside ((ring.reaches_iff other).mp (forward.trans backward))

theorem congr {other : Item → Option Item}
    (same : ∀ member ∈ item :: others, other member = next member) :
    RingAt other item others := by
  refine ⟨ring.nodup, ?_⟩
  rcases ring.round with ⟨alone, free⟩ | leads
  · exact .inl ⟨alone, (same item (mem_cons_self ..)).trans free⟩
  · exact .inr (leads.congr same)

end

end RingAt

def AllRings (next : Item → Option Item) : Prop :=
  ∀ item, ∃ others, RingAt next item others

theorem AllRings.symm (rings : AllRings next) (reaches : Reaches next item other) :
    Reaches next other item := by
  obtain ⟨_, ring⟩ := rings item
  obtain ⟨_, back, same⟩ := ring.exists_at ((ring.reaches_iff other).mp reaches)
  exact (back.reaches_iff item).mpr ((same item).mpr (mem_cons_self ..))

variable [DecidableEq Item]

def exchanged (next : Item → Option Item) (first second : Item) :
    Item → Option Item :=
  fun item =>
    if item = second then some ((next first).getD first)
    else if item = first then some ((next second).getD second)
    else next item

theorem exchanged_of_ne {first second item : Item}
    (notFirst : item ≠ first) (notSecond : item ≠ second) :
    exchanged next first second item = next item := by
  rw [exchanged, if_neg notSecond, if_neg notFirst]

theorem exchanged_second (next : Item → Option Item) (first second : Item) :
    exchanged next first second second = some ((next first).getD first) :=
  if_pos rfl

theorem exchanged_first {first second : Item} (next : Item → Option Item)
    (different : first ≠ second) :
    exchanged next first second first = some ((next second).getD second) := by
  rw [exchanged, if_neg different, if_pos rfl]

section Exchange

variable {next : Item → Option Item} {first second : Item}
variable {firsts seconds : List Item}

theorem RingAt.merge (firstRing : RingAt next first firsts)
    (secondRing : RingAt next second seconds)
    (apart : ∀ item ∈ first :: firsts, item ∉ second :: seconds) :
    RingAt (exchanged next first second) first (seconds ++ second :: firsts) := by
  have different : first ≠ second := by
    rintro rfl
    exact apart first (mem_cons_self ..) (mem_cons_self ..)
  have firstNodup := nodup_cons.mp firstRing.nodup
  have secondNodup := nodup_cons.mp secondRing.nodup
  refine ⟨?_, .inr ⟨?_, ?_⟩⟩
  · have both : ((second :: seconds) ++ (first :: firsts)).Nodup := by
      rw [nodup_append]
      refine ⟨secondRing.nodup, firstRing.nodup, ?_⟩
      rintro item inSecond _ inFirst rfl
      exact apart item inFirst inSecond
    have order : ((second :: seconds) ++ (first :: firsts)).Perm
        (first :: (seconds ++ second :: firsts)) := by
      refine perm_middle.trans (.cons _ ?_)
      exact perm_middle.symm
    exact order.nodup_iff.mp both
  · rw [exchanged_first next different, secondRing.succ_eq, headD_append]
    rfl
  · rw [leads_append]
    refine ⟨?_, ?_, ?_⟩
    · refine secondRing.leads_others.congr ?_
      intro item member
      apply exchanged_of_ne
      · rintro rfl
        exact apart item (mem_cons_self ..) (mem_cons_of_mem _ member)
      · rintro rfl
        exact secondNodup.1 member
    · rw [exchanged_second, firstRing.succ_eq]
    · refine firstRing.leads_others.congr ?_
      intro item member
      apply exchanged_of_ne
      · rintro rfl
        exact firstNodup.1 member
      · rintro rfl
        exact apart item (mem_cons_of_mem _ member) (mem_cons_self ..)

theorem RingAt.split (ring : RingAt next first (before ++ [second])) :
    RingAt (exchanged next first second) first [] ∧
      RingAt (exchanged next first second) second before := by
  have nodup := ring.nodup
  have different : first ≠ second := by
    rintro rfl
    simp at nodup
  have last : next second = some first := by
    have leads := ring.leads_others
    rw [leads_append] at leads
    exact leads.2.1
  have successor := ring.succ_eq
  rw [headD_append] at successor
  refine ⟨⟨by simp, .inr ⟨?_, trivial⟩⟩, ?_, .inr ⟨?_, ?_⟩⟩
  · rw [exchanged_first next different, last]
    rfl
  · have tail := (nodup_cons.mp nodup).2
    rw [nodup_append_comm] at tail
    exact tail
  · rw [exchanged_second, successor]
    rfl
  · have leads := ring.leads_others
    rw [leads_append] at leads
    refine leads.1.congr ?_
    intro item member
    apply exchanged_of_ne
    · rintro rfl
      simp [member] at nodup
    · rintro rfl
      have tail := (nodup_cons.mp nodup).2
      rw [nodup_append] at tail
      exact tail.2.2 item member item (mem_singleton_self _) rfl

theorem RingAt.untouched
    (ring : RingAt next item others) (notFirst : ¬ Reaches next item first)
    (notSecond : ¬ Reaches next item second) :
    RingAt (exchanged next first second) item others := by
  refine ring.congr ?_
  intro member inside
  have reaches := (ring.reaches_iff member).mpr inside
  apply exchanged_of_ne
  · rintro rfl
    exact notFirst reaches
  · rintro rfl
    exact notSecond reaches

theorem AllRings.exchange_apart (rings : AllRings next)
    (apart : ¬ Reaches next first second) :
    AllRings (exchanged next first second) ∧
      ∀ item other, Reaches (exchanged next first second) item other ↔
        Reaches next item other ∨
          Reaches next item first ∧ Reaches next second other ∨
          Reaches next item second ∧ Reaches next first other := by
  obtain ⟨firsts, firstRing⟩ := rings first
  obtain ⟨seconds, secondRing⟩ := rings second
  have joined := firstRing.merge secondRing (firstRing.apart secondRing
    fun member => apart ((firstRing.reaches_iff second).mpr member))
  have members : ∀ other, other ∈ first :: (seconds ++ second :: firsts) ↔
      Reaches next first other ∨ Reaches next second other := by
    intro other
    rw [firstRing.reaches_iff, secondRing.reaches_iff]
    grind
  have each : ∀ item, ∃ others, RingAt (exchanged next first second) item others ∧
      ∀ other, other ∈ item :: others ↔ Reaches next item other ∨
        Reaches next item first ∧ Reaches next second other ∨
        Reaches next item second ∧ Reaches next first other := by
    intro item
    by_cases fromFirst : Reaches next first item
    · obtain ⟨rest, found, same⟩ := joined.exists_at ((members item).mpr (.inl fromFirst))
      refine ⟨rest, found, ?_⟩
      intro other
      rw [same other, members other]
      have back := rings.symm fromFirst
      constructor
      · rintro (reaches | reaches)
        · exact .inl (back.trans reaches)
        · exact .inr (.inl ⟨back, reaches⟩)
      · rintro (reaches | ⟨_, reaches⟩ | ⟨toSecond, _⟩)
        · exact .inl (fromFirst.trans reaches)
        · exact .inr reaches
        · exact absurd (fromFirst.trans toSecond) apart
    · by_cases fromSecond : Reaches next second item
      · obtain ⟨rest, found, same⟩ :=
          joined.exists_at ((members item).mpr (.inr fromSecond))
        refine ⟨rest, found, ?_⟩
        intro other
        rw [same other, members other]
        have back := rings.symm fromSecond
        constructor
        · rintro (reaches | reaches)
          · exact .inr (.inr ⟨back, reaches⟩)
          · exact .inl (back.trans reaches)
        · rintro (reaches | ⟨toFirst, _⟩ | ⟨_, reaches⟩)
          · exact .inr (fromSecond.trans reaches)
          · exact absurd (rings.symm toFirst) fromFirst
          · exact .inl reaches
      · have notFirst : ¬ Reaches next item first := fun reaches =>
          fromFirst (rings.symm reaches)
        have notSecond : ¬ Reaches next item second := fun reaches =>
          fromSecond (rings.symm reaches)
        obtain ⟨others, own⟩ := rings item
        refine ⟨others, own.untouched notFirst notSecond, ?_⟩
        intro other
        rw [← own.reaches_iff]
        simp [notFirst, notSecond]
  constructor
  · intro item
    obtain ⟨others, ring, _⟩ := each item
    exact ⟨others, ring⟩
  · intro item other
    obtain ⟨others, ring, same⟩ := each item
    rw [ring.reaches_iff, same]

theorem AllRings.exchange_last (rings : AllRings next)
    (ring : RingAt next first (before ++ [second])) :
    AllRings (exchanged next first second) := by
  obtain ⟨alone, rest⟩ := ring.split
  intro item
  by_cases member : item ∈ first :: (before ++ [second])
  · rcases mem_cons.mp member with rfl | _
    · exact ⟨[], alone⟩
    have inRest : item ∈ second :: before := by
      grind
    obtain ⟨others, found, _⟩ := rest.exists_at inRest
    exact ⟨others, found⟩
  · obtain ⟨others, own⟩ := rings item
    have outside : ¬ Reaches next first item := fun reaches =>
      member ((ring.reaches_iff item).mp reaches)
    have toSecond : Reaches next first second := (ring.reaches_iff second).mpr (by simp)
    refine ⟨others, own.untouched ?_ ?_⟩
    · intro reaches
      exact outside (rings.symm reaches)
    · intro reaches
      exact outside (toSecond.trans (rings.symm reaches))

end Exchange

end ZephyrBluetooth.Data
