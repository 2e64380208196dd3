import Mathlib.Data.List.Basic

namespace ZephyrBluetooth.Data

open List

/-! A queue of messages whose boundaries are only a flag of their elements: every
element but the last of a message tells that more follows. -/

universe u

variable {Item : Type u} {more : Item → Bool}

variable {message queue : List Item} {item : Item}

inductive Whole (more : Item → Bool) : List Item → Prop
  | last (item : Item) (ends : more item = false) : Whole more [item]
  | cons (item : Item) {rest : List Item} (follows : more item = true)
      (whole : Whole more rest) : Whole more (item :: rest)

def Ends (more : Item → Bool) (items : List Item) : Prop :=
  ∀ item, items.getLast? = some item → more item = false

structure Holds (more : Item → Bool) (messages : List (List Item))
    (queue : List Item) : Prop where
  whole : ∀ message ∈ messages, Whole more message
  queue : queue = messages.flatten

theorem Whole.of_init {last : Item} (ends : more last = false) :
    ∀ {items : List Item}, (∀ item ∈ items, more item = true) →
      Whole more (items ++ [last])
  | [], _ => .last last ends
  | item :: _, follow =>
    .cons item (follow item mem_cons_self) (of_init ends fun other member =>
        follow other (mem_cons_of_mem item member))

theorem Whole.ne_nil (whole : Whole more message) : message ≠ [] := by
  cases whole with
  | last item => exact cons_ne_nil item []
  | cons item => exact cons_ne_nil item _

theorem Whole.of_singleton (whole : Whole more [item]) : more item = false := by
  cases whole with
  | last _ ends => exact ends
  | cons _ _ whole => exact absurd rfl whole.ne_nil

theorem Whole.tail {item : Item} {rest : List Item}
    (whole : Whole more (item :: rest)) (some : rest ≠ []) :
    more item = true ∧ Whole more rest := by
  cases whole with
  | last => exact absurd rfl some
  | cons _ follows whole => exact ⟨follows, whole⟩

theorem Whole.cut {back : List Item} :
    ∀ {front : List Item}, Whole more (front ++ back) → front ≠ [] →
      Ends more front → back = []
  | [], _, filled, _ => absurd rfl filled
  | [item], whole, _, ends => by
      by_contra some
      have follows := (whole.tail some).1
      rw [ends item rfl] at follows
      cases follows
  | item :: next :: rest, whole, _, ends => by
      refine cut (whole.tail (cons_ne_nil next _)).2 (cons_ne_nil next rest) ?_
      intro last same
      refine ends last ?_
      rw [getLast?_cons_cons]
      exact same

namespace Holds

theorem nil : Holds more [] [] where
  whole message member := by cases member
  queue := rfl

variable {messages : List (List Item)}

theorem append (holds : Holds more messages queue) (whole : Whole more message) :
    Holds more (messages ++ [message]) (queue ++ message) where
  whole other member := by
    rcases mem_append.mp member with old | new
    · exact holds.whole other old
    · rw [mem_singleton.mp new]
      exact whole
  queue := by
    rw [holds.queue, flatten_append, flatten_singleton]

theorem sublist {messages kept : List (List Item)}
    (holds : Holds more messages queue) (fewer : kept.Sublist messages) :
    Holds more kept kept.flatten where
  whole message member := holds.whole message (fewer.mem member)
  queue := rfl

theorem head (holds : Holds more messages (item :: queue)) :
    ∃ message others, messages = (item :: message) :: others ∧
      queue = message ++ others.flatten := by
  obtain ⟨whole, same⟩ := holds
  cases messages with
  | nil => cases same
  | cons first others =>
    cases first with
    | nil => exact absurd rfl (whole [] mem_cons_self).ne_nil
    | cons start message =>
      cases same
      exact ⟨message, others, rfl, rfl⟩

theorem split :
    ∀ {messages : List (List Item)} {front back : List Item},
      Holds more messages (front ++ back) → Ends more front →
      ∃ before after, messages = before ++ after ∧
        Holds more before front ∧ Holds more after back
  | [], front, back, holds, _ => by
      obtain ⟨rfl, rfl⟩ := append_eq_nil_iff.mp holds.queue
      exact ⟨[], [], rfl, .nil, .nil⟩
  | message :: others, front, back, holds, ends => by
      have whole := holds.whole message mem_cons_self
      have same : front ++ back = message ++ others.flatten := holds.queue
      have rest : Holds more others others.flatten :=
        holds.sublist (sublist_cons_self message others)
      rcases append_eq_append_iff.mp same with
        ⟨middle, cut, behind⟩ | ⟨middle, cut, behind⟩
      · cases front with
        | nil =>
          refine ⟨[], message :: others, rfl, .nil, holds.whole, ?_⟩
          rw [nil_append] at same
          exact same
        | cons item front =>
          have none := (cut ▸ whole).cut (cons_ne_nil item front) ends
          subst none
          rw [append_nil] at cut
          refine ⟨[message], others, rfl, ?_, ?_⟩
          · have alone := Holds.nil.append whole
            rw [cut] at alone ⊢
            exact alone
          · rw [behind]
            exact rest
      · have later : Ends more middle := by
          intro item last
          refine ends item ?_
          rw [cut, getLast?_append, last]
          rfl
        rw [behind] at rest
        obtain ⟨before, after, same, first, second⟩ := split rest later
        refine ⟨message :: before, after, by rw [same]; rfl, ?_, second⟩
        refine ⟨?_, by rw [cut, first.queue]; rfl⟩
        intro other member
        rcases mem_cons.mp member with rfl | later
        · exact whole
        · exact first.whole other later

theorem alone {front back : List Item}
    (holds : Holds more messages (front ++ item :: back)) (before : Ends more front)
    (ends : more item = false) : ∃ pre post, messages = pre ++ [item] :: post ∧
      Holds more (pre ++ post) (front ++ back) := by
  obtain ⟨pre, _, rfl, first, second⟩ := holds.split before
  obtain ⟨message, post, rfl, behind⟩ := second.head
  have whole := second.whole _ mem_cons_self
  have nothing : message = [] := by
    by_contra some
    rw [(whole.tail some).1] at ends
    cases ends
  subst nothing
  refine ⟨pre, post, rfl, ?_, ?_⟩
  · intro other member
    rcases mem_append.mp member with left | right
    · exact first.whole other left
    · exact second.whole other (mem_cons_of_mem _ right)
  · rw [flatten_append, ← first.queue, behind]
    rfl

end Holds

def Unsent (accepted messages : List (List Item)) : Prop :=
  ∀ first others, messages = first :: others →
    ∃ sent, List.Sublist ((sent ++ first) :: others) accepted

namespace Unsent

variable {accepted messages : List (List Item)}

theorem nil : Unsent accepted [] := by
  intro first others same
  cases same

theorem of_sublist (fewer : messages.Sublist accepted) :
    Unsent accepted messages := by
  rintro _ _ rfl
  exact ⟨[], fewer⟩

theorem others {first : List Item}
    (unsent : Unsent accepted (first :: messages)) :
    messages.Sublist accepted := by
  obtain ⟨_, fewer⟩ := unsent first messages rfl
  exact (sublist_cons_self _ messages).trans fewer

theorem append (unsent : Unsent accepted messages) (message : List Item) :
    Unsent (accepted ++ [message]) (messages ++ [message]) := by
  cases messages with
  | nil => exact of_sublist (sublist_append_right accepted [message])
  | cons first others =>
    rintro _ _ ⟨⟩
    obtain ⟨sent, fewer⟩ := unsent first others rfl
    exact ⟨sent, fewer.append (List.Sublist.refl [message])⟩

theorem drop (unsent : Unsent accepted messages) (count : Nat) :
    Unsent accepted (messages.drop count) := by
  cases count with
  | zero => exact unsent
  | succ count =>
    cases messages with
    | nil => exact nil
    | cons first others =>
      exact of_sublist ((drop_sublist count others).trans unsent.others)

theorem pop (unsent : Unsent accepted ((item :: message) :: messages)) :
    Unsent accepted (message :: messages) := by
  rintro _ _ ⟨⟩
  obtain ⟨sent, fewer⟩ := unsent _ _ rfl
  refine ⟨sent ++ [item], ?_⟩
  rw [append_assoc]
  exact fewer

theorem remove {before : List (List Item)}
    (unsent : Unsent accepted (before ++ message :: messages)) :
    Unsent accepted (before ++ messages) := by
  cases before with
  | nil => exact of_sublist unsent.others
  | cons first others =>
    rintro _ _ ⟨⟩
    obtain ⟨sent, fewer⟩ := unsent _ _ rfl
    refine ⟨sent, List.Sublist.trans ?_ fewer⟩
    exact ((List.Sublist.refl others).append
      (sublist_cons_self message messages)).cons_cons _

end Unsent

end ZephyrBluetooth.Data
