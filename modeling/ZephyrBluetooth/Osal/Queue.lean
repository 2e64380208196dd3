import ZephyrBluetooth.Data.Machine
import Mathlib.Algebra.GroupWithZero.Nat

namespace ZephyrBluetooth.Osal

open Data List

/-! The queues of `k_queue.c`: a list of nodes beside a counting semaphore, and
the chains of buffers that `buf.c` puts on them. -/

/-- `frags` is `NET_BUF_FRAGS`: the next node belongs to the same chain. -/
structure QueueNode (Item : Type) where
  item : Item
  frags : Bool

structure KQueue (Item : Type) where
  sem : Nat
  dataQ : List (QueueNode Item)

/-- The limit `k_queue_init` gives the semaphore. -/
def semLimit : Nat := 10

def kSemGive (count : Nat) : Nat :=
  min (count + 1) semLimit

def chainNodes {Item : Type} : Item → List Item → List (QueueNode Item)
  | item, [] => [⟨item, false⟩]
  | item, next :: rest => ⟨item, true⟩ :: chainNodes next rest

inductive QueueCall (Item : Type) where
  | append (item : Item)
  | prepend (item : Item)
  | put (item : Item) (frags : List Item)
  | get
  | bufGet

/-- `broken` is the failed assertion of `net_buf_get` that a fragment
follows. -/
inductive QueueAnswer (Item : Type) where
  | null
  | item (item : Item)
  | chain (items : List Item)
  | broken (items : List Item)
  deriving DecidableEq

namespace KQueue

variable {Item : Type}

def init : KQueue Item := ⟨0, []⟩

def append (queue : KQueue Item) (item : Item) : KQueue Item :=
  ⟨kSemGive queue.sem, queue.dataQ ++ [⟨item, false⟩]⟩

def prepend (queue : KQueue Item) (item : Item) : KQueue Item :=
  ⟨kSemGive queue.sem, ⟨item, false⟩ :: queue.dataQ⟩

def appendList (queue : KQueue Item) (nodes : List (QueueNode Item)) :
    KQueue Item :=
  ⟨kSemGive queue.sem, queue.dataQ ++ nodes⟩

/-- `k_queue_get` with `K_NO_WAIT`. -/
def get (queue : KQueue Item) : KQueue Item × QueueAnswer Item :=
  if queue.sem = 0 then (queue, .null)
  else
    match queue.dataQ with
    | [] => (⟨queue.sem - 1, []⟩, .null)
    | node :: rest => (⟨queue.sem - 1, rest⟩, .item node.item)

/-- The rounds of `net_buf_get`, each with a `k_queue_get` of its own, and
whether the last fragment was found. -/
def fragsGet : Nat → List (QueueNode Item) → KQueue Item × List Item × Bool
  | sem, [] => (⟨sem - 1, []⟩, [], false)
  | sem, node :: rest =>
    if sem = 0 then (⟨0, node :: rest⟩, [], false)
    else if node.frags then
      let (queue, items, found) := fragsGet (sem - 1) rest
      (queue, node.item :: items, found)
    else (⟨sem - 1, rest⟩, [node.item], true)

def bufGet (queue : KQueue Item) : KQueue Item × QueueAnswer Item :=
  match fragsGet queue.sem queue.dataQ with
  | (queue, [], _) => (queue, .null)
  | (queue, items, true) => (queue, .chain items)
  | (queue, items, false) => (queue, .broken items)

def drainNodes : Nat → List (QueueNode Item) → KQueue Item × List Item
  | sem, [] => (⟨sem - 1, []⟩, [])
  | sem, node :: rest =>
    if sem = 0 then (⟨0, node :: rest⟩, [])
    else
      let (queue, items) := drainNodes (sem - 1) rest
      (queue, node.item :: items)

/-- The loop that takes single buffers until `net_buf_get` returns `NULL`. -/
def drain (queue : KQueue Item) : KQueue Item × List Item :=
  drainNodes queue.sem queue.dataQ

def items (queue : KQueue Item) : List Item :=
  queue.dataQ.map QueueNode.item

theorem append_items (queue : KQueue Item) (item : Item) :
    (queue.append item).items = queue.items ++ [item] :=
  map_append

theorem get_items {queue rest : KQueue Item} {item : Item}
    (taken : queue.get = (rest, .item item)) : queue.items = item :: rest.items := by
  unfold get at taken
  split at taken
  · cases taken
  split at taken
  · cases taken
  next opened =>
    cases taken
    exact congrArg (map QueueNode.item) opened

theorem drainNodes_items (sem : Nat) (nodes : List (QueueNode Item)) :
    (drainNodes sem nodes).2 = (nodes.map QueueNode.item).take sem ∧
      (drainNodes sem nodes).1.items = (nodes.map QueueNode.item).drop sem := by
  induction nodes generalizing sem with
  | nil => exact ⟨take_nil.symm, drop_nil.symm⟩
  | cons node rest ih =>
    cases sem with
    | zero => exact ⟨rfl, rfl⟩
    | succ sem =>
      obtain ⟨taken, left⟩ := ih sem
      exact ⟨congrArg (node.item :: ·) taken, left⟩

theorem drain_items (queue : KQueue Item) :
    queue.drain.2 ++ queue.drain.1.items = queue.items := by
  obtain ⟨taken, left⟩ := drainNodes_items queue.sem queue.dataQ
  unfold drain
  rw [taken, left]
  exact take_append_drop ..

/-- Filled by `append` alone since `k_queue_init`. -/
structure Filled (queue : KQueue Item) (all : List Item) : Prop where
  items : queue.items = all
  sem : queue.sem = min all.length semLimit

variable {queue : KQueue Item}

theorem Filled.append {all : List Item} (filled : queue.Filled all) (item : Item) :
    (queue.append item).Filled (all ++ [item]) := by
  refine ⟨?_, ?_⟩
  · rw [append_items, filled.items]
  · show min (queue.sem + 1) semLimit = _
    rw [filled.sem, length_append, length_singleton]
    omega

theorem Filled.drain {all : List Item}
    (filled : queue.Filled all) : queue.drain.2 = all.take semLimit := by
  have taken : queue.drain.2 = queue.items.take queue.sem :=
    (drainNodes_items queue.sem queue.dataQ).1
  rw [taken, filled.items, filled.sem, Nat.min_comm, ← take_take, take_length]

def step (queue : KQueue Item) :
    QueueCall Item → KQueue Item × List (QueueAnswer Item)
  | .append item => (queue.append item, [])
  | .prepend item => (queue.prepend item, [])
  | .put item frags => (queue.appendList (chainNodes item frags), [])
  | .get => (queue.get.1, [queue.get.2])
  | .bufGet => (queue.bufGet.1, [queue.bufGet.2])

end KQueue

def queueMachine (Item : Type) :
    Machine (KQueue Item) (QueueCall Item) (QueueAnswer Item) :=
  ⟨KQueue.step⟩

/-! The queue as its callers see it: chains in order, of any number and
length. -/

abbrev Fifo (Item : Type) := List (Item × List Item)

def fifoStep {Item : Type} (fifo : Fifo Item) :
    QueueCall Item → Fifo Item × List (QueueAnswer Item)
  | .append item => (fifo ++ [(item, [])], [])
  | .prepend item => ((item, []) :: fifo, [])
  | .put item frags => (fifo ++ [(item, frags)], [])
  | .get =>
    match fifo with
    | [] => ([], [.null])
    | (item, []) :: rest => (rest, [.item item])
    | (item, next :: frags) :: rest => ((next, frags) :: rest, [.item item])
  | .bufGet =>
    match fifo with
    | [] => ([], [.null])
    | (item, frags) :: rest => (rest, [.chain (item :: frags)])

def fifoMachine (Item : Type) :
    Machine (Fifo Item) (QueueCall Item) (QueueAnswer Item) :=
  ⟨fifoStep⟩

/-- The calls are answered as by the unbounded queue, and so are the gets that
empty it afterwards. -/
def Delivers {Item : Type} (calls : List (QueueCall Item)) : Prop :=
  ∀ gets, (queueMachine Item).trace KQueue.init
      (calls ++ List.replicate gets .bufGet) =
    (fifoMachine Item).trace [] (calls ++ List.replicate gets .bufGet)

def Counted {Item : Type} (queue : KQueue Item) : QueueCall Item → Prop
  | .append _ => queue.dataQ.length < semLimit
  | .prepend _ => queue.dataQ.length < semLimit
  | .put _ frags => frags = [] ∧ queue.dataQ.length < semLimit
  | .get => True
  | .bufGet => True

section Exact

variable {Item : Type}

variable {queue : KQueue Item} {fifo : Fifo Item} {call : QueueCall Item}
  {calls : List (QueueCall Item)}

def fifoNodes (fifo : Fifo Item) : List (QueueNode Item) :=
  fifo.flatMap fun entry => chainNodes entry.1 entry.2

structure Represents (queue : KQueue Item) (fifo : Fifo Item) : Prop where
  nodes : queue.dataQ = fifoNodes fifo
  counted : queue.sem = queue.dataQ.length

theorem fragsGet_chain (item : Item) (frags : List Item)
    (rest : List (QueueNode Item)) {sem : Nat}
    (enough : (chainNodes item frags).length ≤ sem) :
    KQueue.fragsGet sem (chainNodes item frags ++ rest) =
      (⟨sem - (chainNodes item frags).length, rest⟩, item :: frags, true) := by
  induction frags generalizing item sem with
  | nil =>
    have some : sem ≠ 0 := by
      simp only [chainNodes, length_cons, length_nil] at enough
      omega
    simp [chainNodes, KQueue.fragsGet, some]
  | cons next frags ih =>
    simp only [chainNodes, length_cons] at enough
    have some : sem ≠ 0 := by omega
    have fewer : (chainNodes next frags).length ≤ sem - 1 := by omega
    have later := ih next fewer
    simp only [chainNodes, cons_append, KQueue.fragsGet, if_neg some,
      later, length_cons, if_true]
    rw [Nat.sub_sub, add_comm 1]

theorem Represents.step (represents : Represents queue fifo)
    (counted : Counted queue call) :
    Represents (queue.step call).1 (fifoStep fifo call).1 ∧
      (queue.step call).2 = (fifoStep fifo call).2 := by
  obtain ⟨nodes, sem⟩ := represents
  have given : queue.dataQ.length < semLimit →
      kSemGive queue.sem = queue.dataQ.length + 1 := by
    intro below
    unfold kSemGive
    omega
  cases call with
  | append =>
    refine ⟨⟨?_, ?_⟩, rfl⟩
    · simp [KQueue.step, KQueue.append, fifoStep, fifoNodes, nodes, chainNodes]
    · simp [KQueue.step, KQueue.append, given counted]
  | prepend =>
    refine ⟨⟨?_, ?_⟩, rfl⟩
    · simp [KQueue.step, KQueue.prepend, fifoStep, fifoNodes, nodes, chainNodes]
    · simp [KQueue.step, KQueue.prepend, given counted]
  | put =>
    obtain ⟨rfl, below⟩ := counted
    refine ⟨⟨?_, ?_⟩, rfl⟩
    · simp [KQueue.step, KQueue.appendList, fifoStep, fifoNodes, nodes]
    · simp [KQueue.step, KQueue.appendList, chainNodes, given below]
  | get =>
    cases fifo with
    | nil =>
      have empty : queue.dataQ = [] := nodes
      have none : queue.sem = 0 := by rw [sem, empty]; rfl
      have same : queue.get = (queue, .null) := by
        unfold KQueue.get
        rw [if_pos none]
      simp only [KQueue.step, same, fifoStep]
      exact ⟨⟨nodes, sem⟩, trivial⟩
    | cons entry rest =>
      obtain ⟨item, frags⟩ := entry
      cases frags with
      | nil =>
        have opened : queue.dataQ = ⟨item, false⟩ :: fifoNodes rest := nodes
        have some : queue.sem ≠ 0 := by rw [sem, opened]; simp
        have taken : queue.get = (⟨queue.sem - 1, fifoNodes rest⟩, .item item) := by
          unfold KQueue.get
          rw [if_neg some, opened]
        simp only [KQueue.step, taken, fifoStep]
        refine ⟨⟨rfl, ?_⟩, trivial⟩
        rw [sem, opened]
        simp
      | cons next frags =>
        have opened : queue.dataQ = ⟨item, true⟩ ::
            fifoNodes ((next, frags) :: rest) := nodes
        have some : queue.sem ≠ 0 := by rw [sem, opened]; simp
        have taken : queue.get = (⟨queue.sem - 1,
            fifoNodes ((next, frags) :: rest)⟩, .item item) := by
          unfold KQueue.get
          rw [if_neg some, opened]
        simp only [KQueue.step, taken, fifoStep]
        refine ⟨⟨rfl, ?_⟩, trivial⟩
        rw [sem, opened]
        simp
  | bufGet =>
    cases fifo with
    | nil =>
      have empty : queue.dataQ = [] := nodes
      have none : queue.sem = 0 := by rw [sem, empty]; rfl
      have same : queue.bufGet = (queue, .null) := by
        obtain ⟨_, _⟩ := queue
        simp only at empty none
        rw [empty, none]
        rfl
      simp only [KQueue.step, same, fifoStep]
      exact ⟨⟨nodes, sem⟩, trivial⟩
    | cons entry rest =>
      obtain ⟨item, frags⟩ := entry
      have opened : queue.dataQ = chainNodes item frags ++ fifoNodes rest := nodes
      have enough : (chainNodes item frags).length ≤ queue.sem := by
        rw [sem, opened, length_append]
        omega
      have taken : queue.bufGet =
          (⟨queue.sem - (chainNodes item frags).length, fifoNodes rest⟩,
            .chain (item :: frags)) := by
        unfold KQueue.bufGet
        rw [opened, fragsGet_chain item frags (fifoNodes rest) enough]
      simp only [KQueue.step, taken, fifoStep]
      refine ⟨⟨rfl, ?_⟩, trivial⟩
      rw [sem, opened, length_append]
      simp

theorem Represents.trace (represents : Represents queue fifo)
    (along : (queueMachine Item).Along Counted queue calls) :
    (queueMachine Item).trace queue calls = (fifoMachine Item).trace fifo calls := by
  induction calls generalizing queue fifo with
  | nil => rfl
  | cons call rest ih =>
    obtain ⟨next, same⟩ := represents.step along.1
    exact congrArg₂ _ same (ih next along.2)

def QueueAnswer.items : QueueAnswer Item → List Item
  | .null => []
  | .item value => [value]
  | .chain items => items
  | .broken items => items

def QueueCall.items : QueueCall Item → Nat
  | .append _ => 1
  | .prepend _ => 1
  | .put _ frags => frags.length + 1
  | .get => 0
  | .bufGet => 0

def returned (answers : List (QueueAnswer Item)) : Nat :=
  (answers.flatMap QueueAnswer.items).length

def putItems (calls : List (QueueCall Item)) : Nat :=
  (calls.map QueueCall.items).sum

theorem returned_append (first second : List (QueueAnswer Item)) :
    returned (first ++ second) = returned first + returned second := by
  simp [returned]

theorem chainNodes_length (item : Item) (frags : List Item) :
    (chainNodes item frags).length = frags.length + 1 := by
  induction frags generalizing item with
  | nil => rfl
  | cons next frags ih => simp [chainNodes, ih]

theorem fragsGet_length (sem : Nat) (nodes : List (QueueNode Item)) :
    (KQueue.fragsGet sem nodes).2.1.length +
      (KQueue.fragsGet sem nodes).1.dataQ.length = nodes.length := by
  induction nodes generalizing sem with
  | nil => rfl
  | cons node rest ih =>
    unfold KQueue.fragsGet
    split
    · simp
    split
    · have later := ih (sem - 1)
      rw [length_cons, length_cons, Nat.add_right_comm]
      exact congrArg (· + 1) later
    · simp [add_comm]

theorem fragsGet_sem {sem : Nat} {nodes : List (QueueNode Item)}
    (behind : sem < nodes.length) : (KQueue.fragsGet sem nodes).1.sem <
      (KQueue.fragsGet sem nodes).1.dataQ.length := by
  induction nodes generalizing sem with
  | nil => simp at behind
  | cons node rest ih =>
    simp only [length_cons] at behind
    unfold KQueue.fragsGet
    split
    · simp
    split
    · exact ih (by omega)
    · simp only
      omega

theorem bufGet_fst (queue : KQueue Item) :
    queue.bufGet.1 = (KQueue.fragsGet queue.sem queue.dataQ).1 := by
  unfold KQueue.bufGet
  split <;> rename_i opened <;> simp [opened]

theorem bufGet_items (queue : KQueue Item) :
    queue.bufGet.2.items = (KQueue.fragsGet queue.sem queue.dataQ).2.1 := by
  unfold KQueue.bufGet
  split <;> rename_i opened <;> simp [opened, QueueAnswer.items]

theorem get_length (queue : KQueue Item) :
    queue.get.2.items.length + queue.get.1.dataQ.length = queue.dataQ.length := by
  unfold KQueue.get
  split
  · simp [QueueAnswer.items]
  split
  · rename_i empty
    simp [QueueAnswer.items, empty]
  · rename_i opened
    simp [QueueAnswer.items, opened, add_comm]

theorem KQueue.step_conserves (queue : KQueue Item) (call : QueueCall Item) :
    returned (queue.step call).2 + (queue.step call).1.dataQ.length =
      queue.dataQ.length + call.items := by
  cases call with
  | append => simp [KQueue.step, KQueue.append, returned, QueueCall.items]
  | prepend => simp [KQueue.step, KQueue.prepend, returned, QueueCall.items]
  | put =>
    simp [KQueue.step, KQueue.appendList, returned, QueueCall.items,
      chainNodes_length]
  | get =>
    simp only [KQueue.step, returned, flatMap_cons, flatMap_nil,
      append_nil, QueueCall.items, add_zero]
    exact get_length queue
  | bufGet =>
    simp only [KQueue.step, returned, flatMap_cons, flatMap_nil,
      append_nil, QueueCall.items, add_zero, bufGet_fst,
      bufGet_items]
    exact fragsGet_length queue.sem queue.dataQ

def fifoItems (fifo : Fifo Item) : Nat :=
  (fifoNodes fifo).length

theorem fifoStep_conserves (fifo : Fifo Item) (call : QueueCall Item) :
    returned (fifoStep fifo call).2 + fifoItems (fifoStep fifo call).1 =
      fifoItems fifo + call.items := by
  cases call with
  | append =>
    simp [fifoStep, returned, QueueCall.items, fifoItems, fifoNodes,
      chainNodes_length]
  | prepend =>
    simp [fifoStep, returned, QueueCall.items, fifoItems, fifoNodes,
      chainNodes_length, add_comm]
  | put =>
    simp [fifoStep, returned, QueueCall.items, fifoItems, fifoNodes,
      chainNodes_length]
  | get =>
    cases fifo with
    | nil => rfl
    | cons entry rest =>
      obtain ⟨_, frags⟩ := entry
      cases frags with
      | nil =>
        simp [fifoStep, returned, QueueCall.items, fifoItems, fifoNodes,
          chainNodes_length, QueueAnswer.items]
      | cons =>
        simp only [fifoStep, returned, QueueCall.items, fifoItems,
          fifoNodes, chainNodes_length, QueueAnswer.items,
          flatMap_cons, flatMap_nil, append_nil,
          length_append, length_cons, length_nil]
        omega
  | bufGet =>
    cases fifo with
    | nil => rfl
    | cons =>
      simp [fifoStep, returned, QueueCall.items, fifoItems, fifoNodes,
        chainNodes_length, QueueAnswer.items]

theorem run_conserves {State : Type}
    {machine : Machine State (QueueCall Item) (QueueAnswer Item)}
    {held : State → Nat}
    (step : ∀ state call, returned (machine.emit state call) +
      held (machine.next state call) = held state + call.items)
    (state : State) (calls : List (QueueCall Item)) :
    returned (machine.trace state calls) + held (machine.run state calls) =
      held state + putItems calls := by
  induction calls generalizing state with
  | nil => simp [returned, putItems]
  | cons call rest ih =>
    have first := step state call
    have later := ih (machine.next state call)
    simp only [Machine.trace_cons, Machine.run_cons, returned_append,
      putItems, map_cons, sum_cons] at later ⊢
    omega

theorem KQueue.step_behind (behind : queue.sem < queue.dataQ.length) :
    (queue.step call).1.sem < (queue.step call).1.dataQ.length := by
  have given : kSemGive queue.sem ≤ queue.sem + 1 := by
    unfold kSemGive
    omega
  cases call with
  | append =>
    simp only [KQueue.step, KQueue.append, length_append, length_cons, length_nil]
    omega
  | prepend =>
    simp only [KQueue.step, KQueue.prepend, length_cons]
    omega
  | put =>
    simp only [KQueue.step, KQueue.appendList, length_append, chainNodes_length]
    omega
  | get =>
    simp only [KQueue.step]
    unfold KQueue.get
    split
    · exact behind
    split
    · rename_i empty
      rw [empty] at behind
      simp at behind
    · rename_i opened
      rw [opened, length_cons] at behind
      simp only
      omega
  | bufGet =>
    simp only [KQueue.step, bufGet_fst]
    exact fragsGet_sem behind

theorem KQueue.step_uncounted (counted : queue.sem = queue.dataQ.length)
    (refused : ¬Counted queue call) :
    (queue.step call).1.sem < (queue.step call).1.dataQ.length := by
  have given : kSemGive queue.sem ≤ queue.sem + 1 := by
    unfold kSemGive
    omega
  have limited : kSemGive queue.sem ≤ semLimit := by
    unfold kSemGive
    omega
  cases call with
  | append =>
    simp only [Counted] at refused
    simp only [KQueue.step, KQueue.append, length_append, length_cons, length_nil]
    omega
  | prepend =>
    simp only [Counted] at refused
    simp only [KQueue.step, KQueue.prepend, length_cons]
    omega
  | put item frags =>
    simp only [KQueue.step, KQueue.appendList, length_append, chainNodes_length]
    by_cases single : frags = []
    · simp only [Counted, single, true_and] at refused
      omega
    · have more : 0 < frags.length := length_pos_of_ne_nil single
      omega
  | get => exact absurd trivial refused
  | bufGet => exact absurd trivial refused

theorem run_behind {queue : KQueue Item} {calls : List (QueueCall Item)}
    (behind : queue.sem < queue.dataQ.length) :
    ((queueMachine Item).run queue calls).sem <
      ((queueMachine Item).run queue calls).dataQ.length := by
  induction calls generalizing queue with
  | nil => exact behind
  | cons call rest ih => exact ih (KQueue.step_behind behind)

theorem run_uncounted (represents : Represents queue fifo)
    (refused : ¬(queueMachine Item).Along Counted queue calls) :
    ((queueMachine Item).run queue calls).sem <
      ((queueMachine Item).run queue calls).dataQ.length := by
  induction calls generalizing queue fifo with
  | nil => exact absurd trivial refused
  | cons call rest ih =>
    by_cases counted : Counted queue call
    · apply ih (represents.step counted).1
      intro along
      exact refused ⟨counted, along⟩
    · have behind := KQueue.step_uncounted represents.counted counted
      exact @run_behind _ (queue.step call).1 rest behind

theorem fifo_drained (fifo : Fifo Item) :
    (fifoMachine Item).run fifo (replicate fifo.length .bufGet) = [] := by
  induction fifo with
  | nil => rfl
  | cons entry rest ih => exact ih

theorem along_gets (along : (queueMachine Item).Along Counted queue calls)
    (gets : Nat) : (queueMachine Item).Along Counted queue
      (calls ++ replicate gets .bufGet) := by
  induction calls generalizing queue with
  | nil =>
    induction gets generalizing queue with
    | zero => trivial
    | succ gets ih => exact ⟨trivial, ih trivial⟩
  | cons call rest ih => exact ⟨along.1, ih along.2⟩

/-- The queue answers as the unbounded queue exactly when every call puts a
single node and finds fewer nodes waiting than the semaphore can count. -/
theorem queue_delivers_iff (calls : List (QueueCall Item)) :
    Delivers calls ↔ (queueMachine Item).Along Counted KQueue.init calls := by
  have start : Represents (KQueue.init : KQueue Item) [] := ⟨rfl, rfl⟩
  constructor
  · intro delivers
    by_contra refused
    have behind := run_uncounted start refused
    -- the unbounded queue is empty after one get for each chain it holds
    have drained := fifo_drained ((fifoMachine Item).run [] calls)
    rw [← Machine.run_append] at drained
    generalize ((fifoMachine Item).run [] calls).length = gets at drained
    have stranded := @run_behind _ _ (replicate gets .bufGet) behind
    rw [← Machine.run_append] at stranded
    have concrete := @run_conserves Item _ (queueMachine Item)
      (fun queue => queue.dataQ.length) KQueue.step_conserves KQueue.init
      (calls ++ replicate gets .bufGet)
    have abstract := @run_conserves Item _ (fifoMachine Item) fifoItems
      fifoStep_conserves [] (calls ++ replicate gets .bufGet)
    have same := congrArg returned (delivers gets)
    have none : fifoItems ((fifoMachine Item).run []
        (calls ++ replicate gets .bufGet)) = 0 := by
      rw [drained]
      rfl
    have empty : fifoItems ([] : Fifo Item) = 0 := rfl
    have fresh : (KQueue.init : KQueue Item).dataQ.length = 0 := rfl
    omega
  · intro along gets
    exact start.trace (along_gets along gets)

theorem queue_chain_stranded : ¬Delivers [QueueCall.put 1 [2]] := by
  intro delivers
  have answered := delivers 1
  revert answered
  decide

end Exact

end ZephyrBluetooth.Osal
