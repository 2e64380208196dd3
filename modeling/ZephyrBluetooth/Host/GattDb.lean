import ZephyrBluetooth.Data.Machine
import Mathlib.Algebra.GroupWithZero.Nat

namespace ZephyrBluetooth.Host

open Data

/-! The attribute database of `gatt.c`: the services placed by the linker come
first and are numbered from 1, the registered ones follow in the list `db`. -/

inductive BtUuid where
  | uuid16 (val : BitVec 16)
  | uuid32 (val : BitVec 32)
  | uuid128 (val : BitVec 128)
  deriving DecidableEq

namespace BtUuid

def uuid128Base : BitVec 128 := 0x0000000000001000800000805F9B34FB#128

def toUuid128 : BtUuid → BitVec 128
  | uuid16 val => uuid128Base + (val.setWidth 128 <<< 96)
  | uuid32 val => uuid128Base + (val.setWidth 128 <<< 96)
  | uuid128 val => val

/-- `bt_uuid_cmp` returns zero. -/
def same : BtUuid → BtUuid → Bool
  | uuid16 left, uuid16 right => left = right
  | uuid32 left, uuid32 right => left = right
  | uuid128 left, uuid128 right => left = right
  | left, right => left.toUuid128 = right.toUuid128

def gap : BtUuid := uuid16 0x1800#16

def gatt : BtUuid := uuid16 0x1801#16

end BtUuid

structure GattAttr (Data : Type) where
  uuid : BtUuid
  userData : Data
  handle : Nat
  handle_lt : handle < 2 ^ 16

theorem zero_handle_lt : 0 < 2 ^ 16 :=
  Nat.two_pow_pos 16

theorem handle_mod_lt (handle : Nat) : handle % 2 ^ 16 < 2 ^ 16 :=
  Nat.mod_lt _ (by decide)

def GattAttr.setHandle {Data : Type} (attr : GattAttr Data) (handle : Nat) :
    GattAttr Data :=
  { attr with
    handle := handle % 2 ^ 16
    handle_lt := handle_mod_lt handle }

structure GattService (Data : Type) where
  attrs : List (GattAttr Data)
  nonempty : attrs ≠ []

namespace GattService

/-- The service object at an address that holds none of the tests. -/
def blank : GattService Nat :=
  ⟨[⟨.gatt, 0, 0, zero_handle_lt⟩], List.cons_ne_nil _ _⟩

variable {Data : Type}

def first (service : GattService Data) : Nat :=
  (service.attrs.head service.nonempty).handle

def last (service : GattService Data) : Nat :=
  (service.attrs.getLast service.nonempty).handle

end GattService

/-- The services placed by the linker; their attributes have no handle of
their own and are counted from 1 in 16 bits. -/
structure GattStatic (Data : Type) where
  services : List (List (GattAttr Data))
  fits : services.flatten.length < 2 ^ 16

def GattStatic.lastHandle {Data : Type} (static : GattStatic Data) : Nat :=
  static.services.flatten.length

/-- Service objects belong to the application and keep their handles while
they are not registered; `db` lists the registered ones by address. -/
structure GattDb (Data : Type) where
  static : GattStatic Data
  object : Nat → GattService Data
  db : List Nat

inductive GattIter where
  | stop
  | proceed

/-! Iteration: the range, the two filters and the number of matches left. -/

structure GattQuery (Data : Type) where
  startHandle : Nat
  endHandle : Nat
  uuid : Option BtUuid
  attrData : Option Data

structure GattWalk (Carried : Type) where
  numMatches : Nat
  userData : Carried
  iter : GattIter

abbrev GattAttrFunc (Data Carried : Type) :=
  GattAttr Data → Nat → Carried → Carried × GattIter

section Foreach

variable {Data Carried : Type} [DecidableEq Data]

def GattQuery.matches (query : GattQuery Data) (attr : GattAttr Data) : Bool :=
  query.uuid.all (fun uuid => uuid.same attr.uuid) &&
    query.attrData.all (fun data => decide (data = attr.userData))

def gattForeachIter (query : GattQuery Data) (func : GattAttrFunc Data Carried)
    (attr : GattAttr Data) (handle : Nat) (walk : GattWalk Carried) :
    GattWalk Carried :=
  if query.endHandle < handle then { walk with iter := .stop }
  else if handle < query.startHandle then { walk with iter := .proceed }
  else if query.matches attr then
    let (userData, result) := func attr handle walk.userData
    { numMatches := walk.numMatches - 1
      userData
      iter := if walk.numMatches - 1 = 0 then .stop else result }
  else { walk with iter := .proceed }

def foreachAttrs (query : GattQuery Data) (func : GattAttrFunc Data Carried) :
    List (GattAttr Data × Nat) → GattWalk Carried → GattWalk Carried
  | [], walk => walk
  | (attr, handle) :: rest, walk =>
    match (gattForeachIter query func attr handle walk).iter with
    | .stop => gattForeachIter query func attr handle walk
    | .proceed =>
      foreachAttrs query func rest (gattForeachIter query func attr handle walk)

def numbered : Nat → List (GattAttr Data) → List (GattAttr Data × Nat)
  | _, [] => []
  | handle, attr :: rest => (attr, handle) :: numbered (handle + 1) rest

def ownHandles (attrs : List (GattAttr Data)) : List (GattAttr Data × Nat) :=
  attrs.map fun attr => (attr, attr.handle)

def foreachStatic (query : GattQuery Data) (func : GattAttrFunc Data Carried) :
    Nat → List (List (GattAttr Data)) → GattWalk Carried → GattWalk Carried
  | _, [], walk => walk
  | handle, service :: rest, walk =>
    if handle + service.length < query.startHandle then
      foreachStatic query func (handle + service.length) rest walk
    else
      match (foreachAttrs query func (numbered handle service) walk).iter with
      | .stop => foreachAttrs query func (numbered handle service) walk
      | .proceed =>
        foreachStatic query func (handle + service.length) rest
          (foreachAttrs query func (numbered handle service) walk)

def skipsTo (query : GattQuery Data) : List (GattService Data) → Bool
  | [] => false
  | next :: _ => next.first ≤ query.startHandle

def foreachAttrTypeDyndb (query : GattQuery Data)
    (func : GattAttrFunc Data Carried) :
    List (GattService Data) → GattWalk Carried → GattWalk Carried
  | [], walk => walk
  | service :: rest, walk =>
    if skipsTo query rest then foreachAttrTypeDyndb query func rest walk
    else
      match (foreachAttrs query func (ownHandles service.attrs) walk).iter with
      | .stop => foreachAttrs query func (ownHandles service.attrs) walk
      | .proceed =>
        foreachAttrTypeDyndb query func rest
          (foreachAttrs query func (ownHandles service.attrs) walk)

def GattDb.listed (database : GattDb Data) : List (GattService Data) :=
  database.db.map database.object

def btGattForeachAttrType (database : GattDb Data) (query : GattQuery Data)
    (numMatches : Nat) (func : GattAttrFunc Data Carried)
    (userData : Carried) : Carried :=
  let start : GattWalk Carried :=
    { numMatches := if numMatches = 0 then 2 ^ 16 - 1 else numMatches
      userData
      iter := .proceed }
  let walk :=
    if query.startHandle ≤ database.static.lastHandle then
      foreachStatic query func 1 database.static.services start
    else start
  match walk.iter with
  | .stop => walk.userData
  | .proceed => (foreachAttrTypeDyndb query func database.listed walk).userData

def btGattForeachAttr (database : GattDb Data) (startHandle endHandle : Nat)
    (func : GattAttrFunc Data Carried) (userData : Carried) : Carried :=
  btGattForeachAttrType database ⟨startHandle, endHandle, none, none⟩ 0 func userData

def foundAttr : GattAttrFunc Data (Option (GattAttr Data)) :=
  fun attr _ _ => (some attr, .stop)

def findAttr (database : GattDb Data) (handle : Nat) :
    Option (GattAttr Data) :=
  btGattForeachAttr database handle handle foundAttr none

end Foreach

inductive GattError where
  | ealready
  | einval
  | enoent

section Register

variable {Data : Type}

/-- The populate loop.  `visited` and the remaining attributes are what the
service holds when a handle is looked up. -/
def populate (taken : List (GattAttr Data) → Nat → Bool) :
    List (GattAttr Data) → Nat → List (GattAttr Data) → List (GattAttr Data) × Bool
  | visited, _, [] => (visited, true)
  | visited, handle, attr :: rest =>
    if attr.handle = 0 then
      populate taken (visited ++ [attr.setHandle (handle + 1)])
        ((handle + 1) % 2 ^ 16) rest
    else if handle < attr.handle then
      populate taken (visited ++ [attr]) attr.handle rest
    else if taken (visited ++ attr :: rest) attr.handle then
      (visited ++ attr :: rest, false)
    else populate taken (visited ++ [attr]) handle rest

theorem populate_length (taken : List (GattAttr Data) → Nat → Bool)
    (visited : List (GattAttr Data)) (handle : Nat)
    (attrs : List (GattAttr Data)) :
    (populate taken visited handle attrs).1.length =
      visited.length + attrs.length := by
  induction attrs generalizing visited handle with
  | nil => rfl
  | cons attr rest ih =>
    unfold populate
    split
    · rw [ih]
      simp [add_assoc, add_comm 1]
    split
    · rw [ih]
      simp [add_assoc, add_comm 1]
    split
    · simp
    · rw [ih]
      simp [add_assoc, add_comm 1]

variable [DecidableEq Data]

def GattDb.lastHandle (database : GattDb Data) : Nat :=
  match database.db.getLast? with
  | none => 0
  | some address => (database.object address).last

def GattDb.counter (database : GattDb Data) : Nat :=
  match database.db.getLast? with
  | none => database.static.lastHandle
  | some address => (database.object address).last

def GattDb.setAttrs (database : GattDb Data) (address : Nat)
    (service : GattService Data) : GattDb Data :=
  { database with
    object := Function.update database.object address service }

/-- `find_attr` in the middle of the loop, when the service holds `attrs`. -/
def GattDb.taken (database : GattDb Data) (address : Nat)
    (attrs : List (GattAttr Data)) (handle : Nat) : Bool :=
  if nonempty : attrs ≠ [] then
    (findAttr (database.setAttrs address ⟨attrs, nonempty⟩) handle).isSome
  else false

def GattDb.populated (database : GattDb Data) (address : Nat) :
    List (GattAttr Data) × Bool :=
  populate (database.taken address) [] database.counter
    (database.object address).attrs

theorem GattDb.populated_nonempty (database : GattDb Data) (address : Nat) :
    (database.populated address).1 ≠ [] := by
  have length := populate_length (database.taken address) [] database.counter
    (database.object address).attrs
  have nonempty := List.length_pos_of_ne_nil (database.object address).nonempty
  apply List.ne_nil_of_length_pos
  unfold GattDb.populated
  rw [length]
  exact Nat.lt_of_lt_of_le nonempty (Nat.le_add_left _ _)

/-- The loop of `gatt_insert`, which leaves the list as it is when no service
starts above the new one. -/
def insertBefore (first : Nat → Nat) (address : Nat) : List Nat → List Nat
  | [] => []
  | tmp :: rest =>
    if first address < first tmp then address :: tmp :: rest
    else tmp :: insertBefore first address rest

def gattInsert (database : GattDb Data) (address lastHandle : Nat) :
    GattDb Data :=
  let first := fun address => (database.object address).first
  { database with
    db :=
      if lastHandle = 0 ∨ lastHandle < first address then
        database.db ++ [address]
      else insertBefore first address database.db }

def gattRegister (database : GattDb Data) (address : Nat) :
    GattDb Data × Except GattError Unit :=
  let populated := database.setAttrs address
    ⟨(database.populated address).1, database.populated_nonempty address⟩
  if (database.populated address).2 then
    (gattInsert populated address database.lastHandle, .ok ())
  else (populated, .error .einval)

def mandatory (service : GattService Data) : Bool :=
  (service.attrs.head service.nonempty).uuid.same BtUuid.gap ||
    (service.attrs.head service.nonempty).uuid.same BtUuid.gatt

def btGattServiceRegister (database : GattDb Data) (address : Nat) :
    GattDb Data × Except GattError Unit :=
  if mandatory (database.object address) then (database, .error .ealready)
  else gattRegister database address

def btGattServiceUnregister (database : GattDb Data) (address : Nat) :
    GattDb Data × Except GattError Unit :=
  if address ∈ database.db then
    ({ database with db := database.db.erase address }, .ok ())
  else (database, .error .enoent)

/-! Histories.  The application lays out service objects it has not registered,
and registers and unregisters them in any order. -/

inductive GattCall (Data : Type) where
  | layOut (address : Nat) (service : GattService Data)
  | register (address : Nat)
  | unregister (address : Nat)

/-- `accepted` are the services whose last registration returned 0 and that
were not unregistered since. -/
structure GattHistory (Data : Type) where
  database : GattDb Data
  accepted : List Nat

def gattStep (history : GattHistory Data) :
    GattCall Data → GattHistory Data × List (Except GattError Unit)
  | .layOut address service =>
    if address ∈ history.database.db then (history, [])
    else
      ({ history with
          database := history.database.setAttrs address service }, [])
  | .register address =>
    let (database, result) := btGattServiceRegister history.database address
    ({ database
       accepted :=
        match result with
        | .ok _ => address :: history.accepted
        | .error _ => history.accepted }, [result])
  | .unregister address =>
    let (database, result) := btGattServiceUnregister history.database address
    ({ database
       accepted := history.accepted.filter (· ≠ address) }, [result])

def gattMachine (Data : Type) [DecidableEq Data] :
    Machine (GattHistory Data) (GattCall Data) (Except GattError Unit) :=
  ⟨gattStep⟩

def GattHistory.start (static : GattStatic Data)
    (object : Nat → GattService Data) : GattHistory Data :=
  { database := { static, object, db := [] }
    accepted := [] }

def GattDb.attributes (database : GattDb Data) :
    List (GattAttr Data × Nat) :=
  numbered 1 database.static.services.flatten ++ database.db.flatMap fun address =>
      ownHandles (database.object address).attrs

end Register

end ZephyrBluetooth.Host
