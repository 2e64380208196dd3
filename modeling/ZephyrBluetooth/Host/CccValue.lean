import ZephyrBluetooth.Data.Machine
import ZephyrBluetooth.Host.Ccc

namespace ZephyrBluetooth.Host

open Data List Bool

variable {cfg : CccCfg} {value : BitVec 16}

/-! The consolidated value of one CCC descriptor: it is kept while peers write
their configuration, connect, change their security and disconnect. -/

/-- The security of a link: `bt_conn_get_security` and `conn->encrypt`. -/
structure LinkSecurity where
  level : Nat
  encrypt : Bool

structure CccPerm where
  write : Bool
  writeEncrypt : Bool
  writeAuthen : Bool

inductive PermError where
  | writeNotPermitted
  | authentication
  | insufficientEncryption

/-- `bt_gatt_check_perm` with `BT_GATT_PERM_WRITE_MASK`. -/
def checkPermWrite (perm : CccPerm) (security : LinkSecurity) :
    Option PermError :=
  if !(perm.write || perm.writeEncrypt || perm.writeAuthen) then
    some .writeNotPermitted
  else if perm.writeAuthen && decide (security.level < 3) then
    some .authentication
  else if perm.writeEncrypt && !security.encrypt then
    some .insufficientEncryption
  else none

/-- The check of `update_ccc` before a stored value takes effect. -/
def updatePermitted (perm : CccPerm) (security : LinkSecurity) : Bool :=
  match checkPermWrite perm security with
  | none => true
  | some .writeNotPermitted => false
  | some .authentication => !decide (security.level < 3)
  | some .insufficientEncryption => !decide (security.level < 2)

/-- `called` is the value of the last call of `cfg_changed`.  `applied` lists
the connections whose configuration has taken effect: it was written over the
connection, or restored when the link met the write permission. -/
structure CccState where
  cfgs : List CccCfg
  value : BitVec 16
  called : Option (BitVec 16)
  conns : List GattConn
  applied : List Nat

inductive CccInput where
  | connect (conn : GattConn) (security : LinkSecurity)
  | encryptChange (index : Nat) (security : LinkSecurity)
  | write (index offset : Nat) (data : List (BitVec 8)) (accepted : Bool)
  | disconnect (index : Nat) (bonded : Bool)

/-- The loop of `gatt_ccc_changed`. -/
def highest (cfgs : List CccCfg) : BitVec 16 :=
  cfgs.foldl (fun value cfg => if value < cfg.value then cfg.value else value) 0

namespace CccState

def init (max : Nat) : CccState where
  cfgs := List.replicate max .cleared
  value := 0
  called := none
  conns := []
  applied := []

variable (state : CccState)

def gattCccChanged : CccState :=
  if highest state.cfgs ≠ state.value then
    { state with
      value := highest state.cfgs
      called := some (highest state.cfgs) }
  else state

def find (index : Nat) : Option GattConn :=
  state.conns.find? (·.index = index)

def admits (conn : GattConn) : Bool :=
  !state.conns.any (fun other =>
    decide (other.index = conn.index) || other.meets conn)

def joined (conn : GattConn) : CccState :=
  { state with conns := state.conns ++ [conn] }

def effective (index : Nat) : CccState :=
  { state with applied := index :: state.applied }

def restores (perm : CccPerm) (conn : GattConn) (security : LinkSecurity) :
    Bool :=
  state.cfgs.any (fun cfg => decide (cfg.value ≠ 0) && conn.isPeer cfg) &&
    updatePermitted perm security

def updateCcc (perm : CccPerm) (conn : GattConn) (security : LinkSecurity) :
    CccState :=
  if state.restores perm conn security then
    (state.effective conn.index).gattCccChanged
  else state

def writtenValue (offset : Nat) (data : List (BitVec 8)) :
    Option (BitVec 16) :=
  if offset ≠ 0 then none
  else
    match data with
    | [low] => some (low.setWidth 16)
    | [low, high] => some (high ++ low)
    | _ => none

/-- The entries once one belongs to the peer, nothing when none is needed or
none is free. -/
def claim (conn : GattConn) (value : BitVec 16) : Option (List CccCfg) :=
  if state.cfgs.any conn.isPeer then some state.cfgs
  else if value = 0 then none
  else
    changeFirst (fun cfg => decide (cfg.peer = .any))
      (fun cfg => { cfg with peer := conn.dst, id := conn.id }) state.cfgs

def put (conn : GattConn) (value : BitVec 16) (claimed : List CccCfg) :
    CccState :=
  { state.effective conn.index with
    cfgs := (changeFirst conn.isPeer (fun cfg => { cfg with value })
      claimed).getD claimed }

def cleared (conn : GattConn) : CccState :=
  { state with
    cfgs := (changeFirst conn.isPeer (fun _ => .cleared) state.cfgs).getD
      state.cfgs }

/-- `bt_gatt_attr_write_ccc`; `accepted` is the answer of `cfg_write`. -/
def attrWriteCcc (conn : GattConn) (offset : Nat) (data : List (BitVec 8))
    (accepted : Bool) : CccState :=
  match writtenValue offset data with
  | none => state
  | some value =>
    match state.claim conn value with
    | none => state
    | some claimed =>
      if !accepted then { state with cfgs := claimed }
      else
        let next :=
          if value ≠ state.value then
            (state.put conn value claimed).gattCccChanged
          else state.put conn value claimed
        if value = 0 then next.cleared conn else next

def release (conn : GattConn) (bonded : Bool) (cfg : CccCfg) : CccCfg :=
  if cfg.value = 0 then cfg
  else if conn.isPeer cfg then
    if bonded then { cfg with peer := conn.dst } else .cleared
  else cfg

def left (index : Nat) : CccState :=
  { state with
    conns := state.conns.filter (·.index ≠ index)
    applied := state.applied.filter (· ≠ index) }

def valueUsed (conn : GattConn) : Bool :=
  state.cfgs.any fun cfg =>
    decide (cfg.value ≠ 0) && !conn.isPeer cfg &&
      (state.left conn.index).conns.any (·.isPeer cfg)

def disconnectedCb (conn : GattConn) (bonded : Bool) : CccState :=
  if state.value = 0 then state.left conn.index
  else
    let next :=
      { state.left conn.index with
        cfgs := state.cfgs.map (release conn bonded) }
    if state.valueUsed conn then next
    else { next with value := 0, called := some 0 }

def step (perm : CccPerm) : CccInput → CccState
  | .connect conn security =>
    if state.admits conn then
      (state.joined conn).updateCcc perm conn security
    else state
  | .encryptChange index security =>
    match state.find index with
    | none => state
    | some conn => state.updateCcc perm conn security
  | .write index offset data accepted =>
    match state.find index with
    | none => state
    | some conn => state.attrWriteCcc conn offset data accepted
  | .disconnect index bonded =>
    match state.find index with
    | none => state
    | some conn => state.disconnectedCb conn bonded

def counted (cfg : CccCfg) : Bool :=
  state.conns.any fun conn =>
    decide (conn.index ∈ state.applied) && conn.isPeer cfg

def connected (cfg : CccCfg) : Bool :=
  state.conns.any (·.isPeer cfg)

end CccState

def cccMachine (perm : CccPerm) : Machine CccState CccInput Unit :=
  ⟨fun state input => (state.step perm input, [])⟩

def IsHighest (cfgs : List CccCfg) (counts : CccCfg → Bool)
    (value : BitVec 16) : Prop :=
  (∀ cfg ∈ cfgs, counts cfg = true → cfg.value ≤ value) ∧
    (value = 0 ∨ ∃ cfg ∈ cfgs, counts cfg = true ∧ cfg.value = value)

/-- The value is the highest one of the connected peers, and the application
was last told this value. -/
def CccState.FollowsConnected (state : CccState) : Prop :=
  IsHighest state.cfgs state.connected state.value ∧
    state.called.getD 0 = state.value

/-- The value is the highest one of the connected peers whose configuration has
taken effect, and the application was last told this value. -/
def CccState.FollowsEffective (state : CccState) : Prop :=
  IsHighest state.cfgs state.counted state.value ∧ state.called.getD 0 = state.value

namespace CccState

def Dominated (state : CccState) : Prop :=
  ∀ cfg ∈ state.cfgs, cfg.value ≠ 0 →
    ∃ best ∈ state.cfgs, state.counted best = true ∧ cfg.value ≤ best.value

/-- Where the value is computed anew, no entry that does not count is higher
than those that do, and where it is kept it is still the highest one. -/
def Steady (perm : CccPerm) (state : CccState) : CccInput → Prop
  | .connect conn security =>
    state.admits conn = true →
      (state.joined conn).restores perm conn security = true →
        ((state.joined conn).effective conn.index).Dominated
  | .encryptChange index security =>
    ∀ conn, state.find index = some conn → state.restores perm conn security = true →
        (state.effective conn.index).Dominated
  | .write index offset data accepted =>
    ∀ conn value claimed, accepted = true → state.find index = some conn →
      writtenValue offset data = some value →
      state.claim conn value = some claimed →
        if value ≠ state.value then (state.put conn value claimed).Dominated
        else
          ∀ cfg ∈ (state.put conn value claimed).cfgs,
            conn.isPeer cfg = true → cfg.value ≤ state.value
  | .disconnect index _ =>
    ∀ conn, state.find index = some conn → state.value ≠ 0 →
      state.valueUsed conn = true → ∃ best ∈ state.cfgs, conn.isPeer best = false ∧
          state.counted best = true ∧ best.value = state.value

end CccState

theorem highest_foldl (cfgs : List CccCfg) (start : BitVec 16) :
    let value := cfgs.foldl
      (fun value cfg => if value < cfg.value then cfg.value else value) start
    start ≤ value ∧ (∀ cfg ∈ cfgs, cfg.value ≤ value) ∧
      (value = start ∨ ∃ cfg ∈ cfgs, cfg.value = value) := by
  induction cfgs generalizing start with
  | nil => exact ⟨BitVec.le_refl _, by simp, .inl rfl⟩
  | cons cfg rest ih =>
    simp only [foldl_cons]
    split
    · rename_i lower
      obtain ⟨above, bound, reached⟩ := ih cfg.value
      refine ⟨?_, ?_, ?_⟩
      · exact BitVec.le_trans (BitVec.le_of_lt lower) above
      · intro other member
        rcases mem_cons.mp member with rfl | member
        · exact above
        · exact bound other member
      · rcases reached with same | ⟨best, member, same⟩
        · exact .inr ⟨cfg, by simp, same.symm⟩
        · exact .inr ⟨best, by simp [member], same⟩
    · rename_i upper
      obtain ⟨above, bound, reached⟩ := ih start
      refine ⟨above, ?_, ?_⟩
      · intro other member
        rcases mem_cons.mp member with rfl | member
        · exact BitVec.le_trans (BitVec.not_lt.mp upper) above
        · exact bound other member
      · rcases reached with same | ⟨best, member, same⟩
        · exact .inl same
        · exact .inr ⟨best, by simp [member], same⟩

theorem le_highest {cfgs : List CccCfg} (member : cfg ∈ cfgs) :
    cfg.value ≤ highest cfgs :=
  (highest_foldl cfgs 0).2.1 cfg member

theorem highest_reached (cfgs : List CccCfg) :
    highest cfgs = 0 ∨ ∃ cfg ∈ cfgs, cfg.value = highest cfgs :=
  (highest_foldl cfgs 0).2.2

theorem IsHighest.replace {front back : List CccCfg} {old fresh : CccCfg}
    {counts : CccCfg → Bool} (held : IsHighest (front ++ old :: back) counts value)
    (unset : old.value = 0) (clear : fresh.value = 0) :
    IsHighest (front ++ fresh :: back) counts value := by
  obtain ⟨bound, reached⟩ := held
  constructor
  · intro cfg member counted
    simp only [mem_append, mem_cons] at member
    rcases member with first | rfl | last
    · exact bound cfg (by simp [first]) counted
    · rw [clear]
      exact Nat.zero_le _
    · exact bound cfg (by simp [last]) counted
  · rcases reached with zero | ⟨best, member, counted, same⟩
    · exact .inl zero
    simp only [mem_append, mem_cons] at member
    rcases member with first | rfl | last
    · exact .inr ⟨best, by simp [first], counted, same⟩
    · exact .inl (same.symm.trans unset)
    · exact .inr ⟨best, by simp [last], counted, same⟩

structure CccState.Ok (state : CccState) : Prop where
  follows : state.FollowsEffective
  free : ∀ cfg ∈ state.cfgs, cfg.peer = .any → cfg.value = 0
  apart : ∀ conn ∈ state.conns, ∀ other ∈ state.conns, conn = other ∨
    (conn.index ≠ other.index ∧ conn.meets other = false)
  known : ∀ index ∈ state.applied, ∃ conn ∈ state.conns, conn.index = index

namespace CccState

variable {state : CccState} {conn : GattConn}

theorem find_some {index : Nat} (found : state.find index = some conn) :
    conn ∈ state.conns ∧ conn.index = index := by
  exact ⟨mem_of_find?_eq_some found, by simpa using find?_some found⟩

theorem admits_apart (admitted : state.admits conn = true) :
    ∀ other ∈ state.conns, other.index ≠ conn.index ∧ other.meets conn = false := by
  simpa [admits] using admitted

theorem joined_apart
    (apart : ∀ left ∈ state.conns, ∀ right ∈ state.conns, left = right ∨
      (left.index ≠ right.index ∧ left.meets right = false))
    (admitted : state.admits conn = true) :
    ∀ left ∈ (state.joined conn).conns, ∀ right ∈ (state.joined conn).conns,
      left = right ∨ (left.index ≠ right.index ∧ left.meets right = false) := by
  have fresh := admits_apart admitted
  intro left inLeft right inRight
  rw [CccState.joined, mem_append, mem_singleton] at inLeft inRight
  rcases inLeft with oldLeft | rfl <;> rcases inRight with oldRight | rfl
  · exact apart left oldLeft right oldRight
  · exact .inr (fresh left oldLeft)
  · exact .inr ⟨Ne.symm (fresh right oldRight).1,
      (left.meets_comm right).trans (fresh right oldRight).2⟩
  · exact .inl rfl

theorem counted_iff :
    state.counted cfg = true ↔ ∃ conn ∈ state.conns, conn.index ∈ state.applied ∧
        conn.isPeer cfg = true := by
  simp [counted]

@[simp] theorem gattCccChanged_cfgs : state.gattCccChanged.cfgs = state.cfgs := by
  unfold gattCccChanged
  split <;> rfl

@[simp] theorem gattCccChanged_conns :
    state.gattCccChanged.conns = state.conns := by
  unfold gattCccChanged
  split <;> rfl

@[simp] theorem gattCccChanged_applied :
    state.gattCccChanged.applied = state.applied := by
  unfold gattCccChanged
  split <;> rfl

theorem gattCccChanged_value :
    state.gattCccChanged.value = highest state.cfgs := by
  unfold gattCccChanged
  split
  · rfl
  · rename_i same
    exact (not_not.mp same).symm

theorem gattCccChanged_counted :
    state.gattCccChanged.counted = state.counted := by
  unfold counted
  simp only [gattCccChanged_conns, gattCccChanged_applied]

theorem gattCccChanged_called (told : state.called.getD 0 = state.value) :
    state.gattCccChanged.called.getD 0 = state.gattCccChanged.value := by
  unfold gattCccChanged
  split
  · rfl
  · exact told

theorem Dominated.follows (dominated : state.Dominated)
    (told : state.called.getD 0 = state.value) :
    state.gattCccChanged.FollowsEffective := by
  refine ⟨?_, gattCccChanged_called told⟩
  rw [gattCccChanged_cfgs, gattCccChanged_counted, gattCccChanged_value]
  refine ⟨fun cfg member _ => le_highest member, ?_⟩
  by_cases zero : highest state.cfgs = 0
  · exact .inl zero
  rcases highest_reached state.cfgs with none | ⟨cfg, member, same⟩
  · exact absurd none zero
  obtain ⟨best, inside, counts, upper⟩ := dominated cfg member (by rwa [same])
  refine .inr ⟨best, inside, counts, ?_⟩
  rw [same] at upper
  exact BitVec.le_antisymm (le_highest inside) upper

namespace Ok

theorem init (max : Nat) : (CccState.init max).Ok where
  follows := by
    refine ⟨⟨?_, .inl rfl⟩, rfl⟩
    intro cfg member
    rw [eq_of_mem_replicate member]
    exact fun _ => BitVec.le_refl _
  free := by
    intro cfg member _
    rw [eq_of_mem_replicate member]
    rfl
  apart := by
    intro conn member
    cases member
  known := by
    intro index member
    cases member

theorem updateCcc (ok : state.Ok) {perm : CccPerm}
    {security : LinkSecurity} (live : conn ∈ state.conns)
    (steady : state.restores perm conn security = true →
      (state.effective conn.index).Dominated) :
    (state.updateCcc perm conn security).Ok := by
  unfold CccState.updateCcc
  split
  · rename_i restored
    refine ⟨(steady restored).follows ok.follows.2, ?_, ?_, ?_⟩
    · rw [gattCccChanged_cfgs]
      exact ok.free
    · rw [gattCccChanged_conns]
      exact ok.apart
    · rw [gattCccChanged_conns, gattCccChanged_applied]
      intro index member
      rcases mem_cons.mp member with rfl | member
      · exact ⟨conn, live, rfl⟩
      · exact ok.known index member
  · exact ok

section

variable (ok : state.Ok) {conn : GattConn}
include ok

theorem joined (admitted : state.admits conn = true) : (state.joined conn).Ok := by
  have fresh := admits_apart admitted
  have unlisted : conn.index ∉ state.applied := by
    intro applied
    obtain ⟨other, live, same⟩ := ok.known conn.index applied
    exact (fresh other live).1 same
  have counted : (state.joined conn).counted = state.counted := by
    funext cfg
    simp [CccState.counted, CccState.joined, unlisted]
    rfl
  refine ⟨⟨?_, ok.follows.2⟩, ok.free, ?_, ?_⟩
  · rw [counted]
    exact ok.follows.1
  · exact joined_apart ok.apart admitted
  · intro index member
    obtain ⟨other, live, same⟩ := ok.known index member
    exact ⟨other, by simp [CccState.joined, live], same⟩

theorem claimed {claimed : List CccCfg}
    (found : state.claim conn value = some claimed) :
    claimed.any conn.isPeer = true ∧
      ({ state with cfgs := claimed } : CccState).Ok := by
  unfold claim at found
  split at found
  · rename_i own
    cases found
    exact ⟨own, ok⟩
  · split at found
    · cases found
    obtain ⟨_, old, _, split, unused, -, rfl⟩ := changeFirst_split found
    have nobody : old.peer = .any := by simpa using unused
    have unset : old.value = 0 := by
      apply ok.free old _ nobody
      rw [split]
      simp
    constructor
    · simp [GattConn.isPeer, GattConn.isPeerAddrLe]
    · refine ⟨⟨?_, ok.follows.2⟩, ?_, ok.apart, ok.known⟩
      · have held := ok.follows.1
        rw [split] at held
        exact held.replace unset unset
      · intro cfg member
        simp only [mem_append, mem_cons] at member
        rcases member with first | rfl | last
        · exact ok.free cfg (by rw [split]; simp [first])
        · exact fun _ => unset
        · exact ok.free cfg (by rw [split]; simp [last])

theorem counted_effective (live : conn ∈ state.conns) :
    (state.effective conn.index).counted cfg = true ↔
      state.counted cfg = true ∨ conn.isPeer cfg = true := by
  rw [counted_iff, counted_iff]
  constructor
  · rintro ⟨other, inside, applied, own⟩
    rcases mem_cons.mp applied with same | applied
    · rcases ok.apart other inside conn live with rfl | ⟨differ, -⟩
      · exact .inr own
      · exact absurd same differ
    · exact .inl ⟨other, inside, applied, own⟩
  · rintro (⟨other, inside, applied, own⟩ | own)
    · exact ⟨other, inside, mem_cons_of_mem _ applied, own⟩
    · exact ⟨conn, live, mem_cons_self, own⟩

theorem effective_known (live : conn ∈ state.conns) :
    ∀ index ∈ (state.effective conn.index).applied,
      ∃ other ∈ state.conns, other.index = index := by
  intro index member
  rcases mem_cons.mp member with rfl | member
  · exact ⟨conn, live, rfl⟩
  · exact ok.known index member

theorem cleared
    (unset : ∀ cfg, state.cfgs.find? conn.isPeer = some cfg → cfg.value = 0) :
    (state.cleared conn).Ok := by
  cases found : changeFirst conn.isPeer (fun _ => .cleared) state.cfgs with
  | none =>
    have same : state.cleared conn = state := by
      simp [CccState.cleared, found]
    rw [same]
    exact ok
  | some changed =>
    have cfgs : state.cleared conn = { state with cfgs := changed } := by
      simp [CccState.cleared, found]
    rw [cfgs]
    obtain ⟨_, cfg, _, split, own, before, rfl⟩ := changeFirst_split found
    have zero : cfg.value = 0 := by
      apply unset
      rw [split]
      exact find_first own before
    refine ⟨⟨?_, ok.follows.2⟩, ?_, ok.apart, ok.known⟩
    · have held := ok.follows.1
      rw [split] at held
      exact held.replace zero rfl
    · intro other member
      simp only [mem_append, mem_cons] at member
      rcases member with first | rfl | last
      · exact ok.free other (by rw [split]; simp [first])
      · exact fun _ => rfl
      · exact ok.free other (by rw [split]; simp [last])

theorem put_cfgs {claimed : List CccCfg}
    (found : state.claim conn value = some claimed) :
    ∃ front cfg back, claimed = front ++ cfg :: back ∧
      conn.isPeer cfg = true ∧ (∀ other ∈ front, conn.isPeer other = false) ∧
      (state.put conn value claimed).cfgs = front ++ { cfg with value } :: back := by
  obtain ⟨own, -⟩ := ok.claimed found
  rw [← changeFirst_isSome _ (fun cfg => { cfg with value }),
    Option.isSome_iff_exists] at own
  obtain ⟨_, changed⟩ := own
  obtain ⟨front, cfg, back, split, own, before, rfl⟩ := changeFirst_split changed
  refine ⟨front, cfg, back, split, own, before, ?_⟩
  simp [CccState.put, changed]

theorem put (live : conn ∈ state.conns) {claimed : List CccCfg}
    (found : state.claim conn value = some claimed)
    (steady : if value ≠ state.value then (state.put conn value claimed).Dominated
      else ∀ cfg ∈ (state.put conn value claimed).cfgs, conn.isPeer cfg = true →
        cfg.value ≤ state.value) :
    (if value ≠ state.value then (state.put conn value claimed).gattCccChanged
      else state.put conn value claimed).Ok := by
  have okClaimed := (ok.claimed found).2
  obtain ⟨_, cfg, _, split, own, -, cfgs⟩ := ok.put_cfgs found
  have free : ∀ other ∈ (state.put conn value claimed).cfgs,
      other.peer = .any → other.value = 0 := by
    rw [cfgs]
    intro other member
    simp only [mem_append, mem_cons] at member
    rcases member with first | rfl | last
    · exact okClaimed.free other (by simp [split, first])
    · exact fun nobody => absurd nobody (GattConn.isPeerAddrLe_ne_any own)
    · exact okClaimed.free other (by simp [split, last])
  split
  · rename_i differs
    rw [if_pos differs] at steady
    refine ⟨steady.follows ok.follows.2, ?_, ?_, ?_⟩
    · rw [gattCccChanged_cfgs]
      exact free
    · rw [gattCccChanged_conns]
      exact ok.apart
    · rw [gattCccChanged_conns, gattCccChanged_applied]
      exact ok.effective_known live
  · rename_i kept
    rw [if_neg kept, cfgs] at steady
    have same : value = state.value := not_not.mp kept
    refine ⟨⟨?_, ok.follows.2⟩, free, ok.apart, ok.effective_known live⟩
    rw [cfgs]
    have counts : ∀ other, (state.put conn value claimed).counted other = true ↔
          state.counted other = true ∨ conn.isPeer other = true :=
      fun other => ok.counted_effective live
    constructor
    · intro other member counted
      rcases (counts other).mp counted with before | mine
      · simp only [mem_append, mem_cons] at member
        rcases member with first | rfl | last
        · exact okClaimed.follows.1.1 other (by simp [split, first]) before
        · exact BitVec.le_of_eq same
        · exact okClaimed.follows.1.1 other (by simp [split, last]) before
      · exact steady other member mine
    · exact .inr ⟨{ cfg with value }, by simp, (counts _).mpr (.inr own), same⟩

theorem attrWriteCcc (live : conn ∈ state.conns) {offset : Nat}
    {data : List (BitVec 8)} {accepted : Bool}
    (steady : ∀ value claimed, accepted = true →
      writtenValue offset data = some value →
      state.claim conn value = some claimed →
      if value ≠ state.value then (state.put conn value claimed).Dominated
      else ∀ cfg ∈ (state.put conn value claimed).cfgs, conn.isPeer cfg = true →
        cfg.value ≤ state.value) :
    (state.attrWriteCcc conn offset data accepted).Ok := by
  unfold CccState.attrWriteCcc
  cases parsed : writtenValue offset data with
  | none => exact ok
  | some value =>
    simp only
    cases found : state.claim conn value with
    | none => exact ok
    | some claimed =>
      cases accepted with
      | false => exact (ok.claimed found).2
      | true =>
        have next := ok.put live found (steady value claimed rfl parsed found)
        simp only [Bool.not_true, false_eq_true, if_false]
        split
        · rename_i zero
          apply next.cleared
          obtain ⟨front, cfg, back, -, own, before, cfgs⟩ := ok.put_cfgs found
          have written : (if value ≠ state.value then
              (state.put conn value claimed).gattCccChanged
            else state.put conn value claimed).cfgs =
              front ++ { cfg with value } :: back := by
            split
            · rw [gattCccChanged_cfgs, cfgs]
            · exact cfgs
          intro first same
          have own : conn.isPeer { cfg with value } = true := own
          rw [written, find_first own before] at same
          cases same
          exact zero
        · exact next

end

theorem of_left (state : CccState) (index : Nat) :
    (∀ conn ∈ (state.left index).conns, conn ∈ state.conns ∧ conn.index ≠ index) ∧
    ∀ cfg, (state.left index).counted cfg = true → state.counted cfg = true := by
  have live : ∀ conn ∈ (state.left index).conns, conn ∈ state.conns ∧
      conn.index ≠ index := by
    intro conn member
    simpa [CccState.left] using member
  refine ⟨live, ?_⟩
  intro cfg counted
  rw [counted_iff] at counted ⊢
  obtain ⟨conn, inside, applied, own⟩ := counted
  refine ⟨conn, (live conn inside).1, ?_, own⟩
  simp only [CccState.left, mem_filter] at applied
  exact applied.1

section

variable (ok : state.Ok)
include ok

theorem leave (index : Nat) {cfgs : List CccCfg} {called : Option (BitVec 16)}
    (follows : IsHighest cfgs (state.left index).counted value ∧
      called.getD 0 = value) (free : ∀ cfg ∈ cfgs, cfg.peer = .any → cfg.value = 0) :
    ({ state.left index with cfgs, value, called } : CccState).Ok where
  follows := follows
  free := free
  apart := by
    intro conn inside other inside'
    exact ok.apart conn ((of_left state index).1 conn inside).1 other
      ((of_left state index).1 other inside').1
  known := by
    intro other member
    simp only [CccState.left, mem_filter, decide_eq_true_eq] at member
    obtain ⟨conn, live, same⟩ := ok.known other member.1
    refine ⟨conn, ?_, same⟩
    simp only [CccState.left, mem_filter, decide_eq_true_eq]
    exact ⟨live, by rw [same]; exact member.2⟩

theorem release (live : conn ∈ state.conns)
    (bonded : Bool) (member : cfg ∈ state.cfgs) :
    ((release conn bonded cfg).peer = .any → (release conn bonded cfg).value = 0) ∧
    ((release conn bonded cfg).value ≠ 0 → (∃ other ∈ (state.left conn.index).conns,
        other.isPeer (release conn bonded cfg) = true) →
        release conn bonded cfg = cfg ∧ conn.isPeer cfg = false) := by
  unfold CccState.release
  split
  · rename_i zero
    exact ⟨ok.free cfg member, fun active => absurd zero active⟩
  split
  · rename_i own
    cases bonded with
    | false => exact ⟨fun _ => rfl, fun active => absurd rfl active⟩
    | true =>
      constructor
      · exact fun nobody => absurd nobody conn.dst_real
      · rintro - ⟨other, inside, shared⟩
        obtain ⟨known, differs⟩ := (of_left state conn.index).1 other inside
        have mine : conn.isPeer { cfg with peer := conn.dst } = true := by
          rw [GattConn.isPeer_iff] at own ⊢
          exact ⟨own.1, .inl rfl⟩
        have meets := GattConn.meets_of_isPeer mine shared
        rcases ok.apart conn live other known with rfl | ⟨-, apart⟩
        · exact absurd rfl differs
        · rw [apart] at meets
          cases meets
  · rename_i others
    exact ⟨ok.free cfg member, fun _ _ => ⟨rfl, by simpa using others⟩⟩

theorem disconnectedCb (live : conn ∈ state.conns) (bonded : Bool)
    (steady : state.value ≠ 0 → state.valueUsed conn = true →
      ∃ best ∈ state.cfgs, conn.isPeer best = false ∧
        state.counted best = true ∧ best.value = state.value) :
    (state.disconnectedCb conn bonded).Ok := by
  unfold CccState.disconnectedCb
  have kept := of_left state conn.index
  have free : ∀ cfg ∈ state.cfgs.map (CccState.release conn bonded),
      cfg.peer = .any → cfg.value = 0 := by
    intro cfg member
    obtain ⟨old, inside, rfl⟩ := mem_map.mp member
    exact (ok.release live bonded inside).1
  -- an entry with a value that still counts is an entry of another peer
  have stays : ∀ cfg ∈ state.cfgs.map (CccState.release conn bonded),
      (state.left conn.index).counted cfg = true → cfg.value ≠ 0 →
        cfg ∈ state.cfgs ∧ conn.isPeer cfg = false ∧
          ∃ other ∈ (state.left conn.index).conns, other.isPeer cfg = true := by
    intro cfg member counted active
    obtain ⟨old, inside, rfl⟩ := mem_map.mp member
    obtain ⟨other, there, -, shared⟩ := counted_iff.mp counted
    obtain ⟨same, apart⟩ :=
      (ok.release live bonded inside).2 active ⟨other, there, shared⟩
    rw [same] at shared ⊢
    exact ⟨inside, apart, other, there, shared⟩
  split
  · rename_i zero
    apply ok.leave conn.index ⟨⟨?_, .inl zero⟩, ok.follows.2⟩ ok.free
    intro cfg member counted
    exact ok.follows.1.1 cfg member (kept.2 cfg counted)
  · rename_i nonzero
    split
    · rename_i used
      obtain ⟨best, inside, apart, counts, same⟩ := steady nonzero used
      apply ok.leave conn.index ⟨⟨?_, .inr ⟨best, ?_, ?_, same⟩⟩, ok.follows.2⟩ free
      · intro cfg member counted
        by_cases active : cfg.value = 0
        · rw [active]
          exact Nat.zero_le _
        · exact ok.follows.1.1 cfg (stays cfg member counted active).1
            (kept.2 cfg counted)
      · have whole : CccState.release conn bonded best = best := by
          simp [CccState.release, apart]
        rw [← whole]
        exact mem_map_of_mem inside
      · rw [counted_iff] at counts ⊢
        obtain ⟨other, there, applied, shared⟩ := counts
        have differs : other.index ≠ conn.index := by
          rcases ok.apart other there conn live with rfl | ⟨differs, -⟩
          · rw [shared] at apart
            cases apart
          · exact differs
        refine ⟨other, ?_, ?_, shared⟩
        · simpa [CccState.left] using ⟨there, differs⟩
        · simpa [CccState.left] using ⟨applied, differs⟩
    · rename_i unused
      apply ok.leave conn.index ⟨⟨?_, .inl rfl⟩, rfl⟩ free
      intro cfg member counted
      by_cases active : cfg.value = 0
      · rw [active]
        exact Nat.zero_le _
      obtain ⟨inside, apart, other, there, shared⟩ :=
        stays cfg member counted active
      exfalso
      apply unused
      unfold valueUsed
      rw [any_eq_true]
      refine ⟨cfg, inside, ?_⟩
      rw [apart]
      simp only [Bool.not_false, Bool.and_true, and_eq_true,
        decide_eq_true_eq, any_eq_true]
      exact ⟨active, other, there, shared⟩

theorem step {perm : CccPerm} {input : CccInput}
    (steady : state.Steady perm input) : (state.step perm input).Ok := by
  cases input with
  | connect conn security =>
    simp only [CccState.step]
    split
    · rename_i admitted
      apply (ok.joined admitted).updateCcc
      · simp [CccState.joined]
      · exact steady admitted
    · exact ok
  | encryptChange index =>
    cases found : state.find index with
    | none => simpa only [CccState.step, found] using ok
    | some conn =>
      simp only [CccState.step, found]
      exact ok.updateCcc (find_some found).1 (steady conn found)
  | write index =>
    cases found : state.find index with
    | none => simpa only [CccState.step, found] using ok
    | some conn =>
      simp only [CccState.step, found]
      apply ok.attrWriteCcc (find_some found).1
      intro value claimed accept parsed own
      exact steady conn value claimed accept found parsed own
  | disconnect index bonded =>
    cases found : state.find index with
    | none => simpa only [CccState.step, found] using ok
    | some conn =>
      simp only [CccState.step, found]
      exact ok.disconnectedCb (find_some found).1 bonded (steady conn found)

end

end Ok

instance (state : CccState) : Decidable state.Dominated :=
  inferInstanceAs (Decidable (∀ cfg ∈ state.cfgs, cfg.value ≠ 0 →
    ∃ best ∈ state.cfgs, state.counted best = true ∧ cfg.value ≤ best.value))

end CccState

/-- Along a steady run the consolidated value is the highest one of the
connected peers whose configuration has taken effect. -/
theorem ccc_value_follows (perm : CccPerm) (max : Nat) (inputs : List CccInput)
    (steady : (cccMachine perm).Along (CccState.Steady perm)
      (CccState.init max) inputs) :
    (cccMachine perm).Always CccState.FollowsEffective (CccState.init max)
      inputs := by
  have always : (cccMachine perm).Always CccState.Ok (CccState.init max)
      inputs :=
    Machine.always_of_along (fun _ _ ok steady => ok.step steady)
      (CccState.Ok.init max) steady
  exact always.mono fun _ ok => ok.follows

def samplePeer (index : Nat) (val : BitVec 48) : GattConn where
  index
  id := 0
  dst := ⟨1, val⟩
  initAddr := ⟨1, val⟩
  dst_real := by simp [BtAddrLe.any]
  initAddr_real := by simp [BtAddrLe.any]

theorem ccc_value_follows_two : let inputs : List CccInput :=
      [.connect (samplePeer 0 5) ⟨1, false⟩, .write 0 0 [1] true,
        .connect (samplePeer 1 6) ⟨1, false⟩, .write 1 0 [1, 0] true,
        .disconnect 1 true]
    (cccMachine ⟨true, false, false⟩).Always CccState.FollowsEffective
      (CccState.init 2) inputs := by
  intro inputs
  apply ccc_value_follows
  refine ⟨?_, ?_, ?_, ?_, ?_, trivial⟩
  · intro _ restored
    revert restored
    decide
  · intro conn value claimed _ found parsed own
    cases found
    cases parsed
    cases own
    decide
  · intro _ restored
    revert restored
    decide
  · intro conn value claimed _ found parsed own
    cases found
    cases parsed
    cases own
    decide
  · intro conn found _ _
    cases found
    decide

/-- A bonded peer that comes back over a link without encryption is connected,
and its subscription to a CCC that needs encryption does not count. -/
theorem ccc_value_unencrypted :
    ¬ ∀ (perm : CccPerm) (max : Nat) (inputs : List CccInput),
      (cccMachine perm).Always CccState.FollowsConnected (CccState.init max)
        inputs := by
  intro claimed
  have held := (claimed ⟨false, true, false⟩ 2
    [.connect (samplePeer 0 5) ⟨2, true⟩, .write 0 0 [1] true,
      .disconnect 0 true, .connect (samplePeer 0 5) ⟨1, false⟩]).last
  have bound := held.1.1 ⟨0, ⟨1, 5⟩, 1⟩ (by decide) (by decide)
  revert bound
  decide

end ZephyrBluetooth.Host
