import ZephyrBluetooth.Data.Machine
import ZephyrBluetooth.Host.Bytes
import ZephyrBluetooth.Host.Ccc

namespace ZephyrBluetooth.Host

open Data List

/-! Robust caching in `gatt.c`: the Client Supported Features of the clients and
the flags that tell which of them know the current database. -/

/-- What a client did or was told since the latest change of the database.
`confirmed` is about a Service Changed indication sent after that change. -/
inductive CfEvent where
  | request
  | outOfSync
  | hashRead
  | confirmed
  | written
  deriving DecidableEq

/-- A `gatt_cf_cfg`, with the flags `CF_CHANGE_AWARE` and `CF_OUT_OF_SYNC` and
what has been seen of its client. -/
structure GattCfCfg where
  id : BitVec 8
  peer : BtAddrLe
  data : Byte
  changeAware : Bool
  outOfSync : Bool
  seen : List CfEvent
  deriving DecidableEq

namespace GattCfCfg

variable (cfg : GattCfCfg)

def robustCaching : Bool :=
  cfg.data.getLsbD 0

def note (event : CfEvent) : GattCfCfg :=
  { cfg with seen := cfg.seen ++ [event] }

def cleared : GattCfCfg :=
  ⟨cfg.id, .any, 0, false, false, []⟩

/-- `find_cf_cfg` looks for the record of a connection, or for a free one. -/
def foundFor : Option GattConn → Bool
  | none => decide (cfg.peer = .any)
  | some conn => conn.isPeerAddrLe cfg.id cfg.peer

def btGattChangeAware (req : Bool) : GattCfCfg × Bool :=
  if !cfg.robustCaching then (cfg, true)
  else if cfg.changeAware then (cfg, true)
  else if !req then (cfg, false)
  else if cfg.outOfSync then
    ({ cfg with outOfSync := false, changeAware := true }, true)
  else ({ cfg with outOfSync := true }, false)

def dbHashRead : GattCfCfg :=
  ((cfg.note .hashRead).btGattChangeAware true).1

/-- A request: `checks` tells whether its handler asks `bt_gatt_change_aware`
first, and `hash` whether it reads the Database Hash. -/
def onRequest (checks hash : Bool) : GattCfCfg :=
  let noted := cfg.note .request
  let aware := if checks then noted.btGattChangeAware true else (noted, true)
  if aware.2 then (if hash then aware.1.dbHashRead else aware.1)
  else aware.1.note .outOfSync

def cfSetValue : List Byte → Option Byte
  | [] => some cfg.data
  | value :: _ =>
    if cfg.data &&& 7 &&& ~~~value ≠ 0 then none
    else some (cfg.data ||| (value &&& 7))

def cfWrite (conn : GattConn) (offset : Nat) (value : List Byte) : GattCfCfg :=
  if offset > 1 ∨ offset + value.length > 1 then cfg
  else
    match cfg.cfSetValue value with
    | none => cfg
    | some data =>
      { cfg with
        data
        peer := conn.dst
        id := conn.id
        changeAware := true
        seen := cfg.seen ++ [.written] }

def onWrite (conn : GattConn) (req : Bool) (offset : Nat) (value : List Byte) :
    GattCfCfg :=
  let noted := if req then cfg.note .request else cfg
  let aware := noted.btGattChangeAware req
  if aware.2 then aware.1.cfWrite conn offset value
  else if req then aware.1.note .outOfSync
  else aware.1

/-- `sc_indicate_rsp` and `sc_restore_rsp`. -/
def scRsp (confirmed : Bool) : GattCfCfg :=
  let noted := if confirmed then cfg.note .confirmed else cfg
  if noted.robustCaching then { noted with changeAware := true } else noted

def dbChanged : GattCfCfg :=
  if cfg.peer = .any then { cfg with seen := [] }
  else if cfg.robustCaching then
    { cfg with outOfSync := false, changeAware := false, seen := [] }
  else { cfg with seen := [] }

def removeCfCfg (conn : GattConn) (bonded : Bool) : GattCfCfg :=
  if !bonded then cfg.cleared
  else { cfg with peer := conn.dst, outOfSync := false }

end GattCfCfg

/-- A Service Changed indication that was sent on a connection; `fresh` tells
that the database has not changed since. -/
structure ScSent where
  index : Nat
  fresh : Bool

structure GattCaching where
  cfgs : List GattCfCfg
  sent : List ScSent

/-- The connection of `ended` is missing when the callback runs after the reset
of the connection's ATT context. -/
inductive CachingInput where
  | changed
  | request (conn : GattConn) (checks hash : Bool)
  | command (conn : GattConn)
  | write (conn : GattConn) (req : Bool) (offset : Nat) (value : List Byte)
  | indicate (conn : GattConn)
  | ended (place : Nat) (conn : Option GattConn) (err : Byte)
  | disconnected (conn : GattConn) (bonded : Bool)
  | clear (peer : AddrWithId)

namespace GattCaching

variable (state : GattCaching)

def start (count : Nat) : GattCaching where
  cfgs := List.replicate count ⟨0, .any, 0, false, false, []⟩
  sent := []

/-- A change to the record that `find_cf_cfg` finds. -/
def edit (conn : Option GattConn) (change : GattCfCfg → GattCfCfg) :
    GattCaching :=
  { state with
    cfgs := (changeFirst (·.foundFor conn) change state.cfgs).getD state.cfgs }

/-- `cf_write` takes a free record for a client that has none. -/
def onWrite (conn : GattConn) (req : Bool) (offset : Nat)
    (value : List Byte) : GattCaching :=
  if state.cfgs.any (·.foundFor (some conn)) then
    state.edit (some conn) (·.onWrite conn req offset value)
  else state.edit none (·.cfWrite conn offset value)

def onEnded (place : Nat) (conn : Option GattConn) (err : Byte) : GattCaching :=
  match state.sent[place]? with
  | none => state
  | some sent =>
    let rest := { state with sent := state.sent.eraseIdx place }
    match conn with
    | none => rest.edit none (·.scRsp false)
    | some conn =>
      if conn.index = sent.index then
        rest.edit (some conn) (·.scRsp (decide (err = 0) && sent.fresh))
      else state

def onClear (peer : AddrWithId) : GattCaching :=
  { state with
    cfgs := (changeFirst
      (fun cfg => decide (cfg.id = peer.id) && decide (cfg.peer = peer.addr))
      GattCfCfg.cleared state.cfgs).getD state.cfgs }

def step : CachingInput → GattCaching
  | .changed =>
    { cfgs := state.cfgs.map GattCfCfg.dbChanged
      sent := state.sent.map fun sent => { sent with fresh := false } }
  | .request conn checks hash => state.edit (some conn) (·.onRequest checks hash)
  | .command conn =>
    state.edit (some conn) fun cfg => (cfg.btGattChangeAware false).1
  | .write conn req offset value => state.onWrite conn req offset value
  | .indicate conn => { state with sent := state.sent ++ [⟨conn.index, true⟩] }
  | .ended place conn err => state.onEnded place conn err
  | .disconnected conn bonded => state.edit (some conn) (·.removeCfCfg conn bonded)
  | .clear peer => state.onClear peer

end GattCaching

def cachingMachine : Machine GattCaching CachingInput Unit :=
  ⟨fun state input => (state.step input, [])⟩

/-- The client has confirmed the change, or has sent a request after it was
told of the change, or has written its features. -/
def CfEvent.Justified (seen : List CfEvent) : Prop :=
  .confirmed ∈ seen ∨ .written ∈ seen ∨ ∃ before after, seen = before ++ after ∧
      (.outOfSync ∈ before ∨ .hashRead ∈ before) ∧ .request ∈ after

theorem CfEvent.Justified.append {seen : List CfEvent}
    (justified : CfEvent.Justified seen) (later : List CfEvent) :
    CfEvent.Justified (seen ++ later) := by
  rcases justified with confirmed | written | ⟨before, after, split, told, asked⟩
  · exact .inl (mem_append_left _ confirmed)
  · exact .inr (.inl (mem_append_left _ written))
  · refine .inr (.inr ⟨before, after ++ later, ?_, told, ?_⟩)
    · rw [split, append_assoc]
    · exact mem_append_left _ asked

theorem CfEvent.justified_request {seen : List CfEvent}
    (told : .outOfSync ∈ seen ∨ .hashRead ∈ seen) :
    CfEvent.Justified (seen ++ [.request]) :=
  .inr (.inr ⟨seen, [.request], rfl, told, mem_singleton_self _⟩)

namespace GattCfCfg

variable {cfg : GattCfCfg}

structure Sound (cfg : GattCfCfg) : Prop where
  aware : cfg.robustCaching = true → cfg.changeAware = true →
    CfEvent.Justified cfg.seen
  told : cfg.outOfSync = true → cfg.robustCaching = true ∧
    (.outOfSync ∈ cfg.seen ∨ .hashRead ∈ cfg.seen)
  free : cfg.peer = .any → cfg.robustCaching = false

theorem Sound.note (sound : cfg.Sound) (event : CfEvent) :
    (cfg.note event).Sound where
  aware := fun robust aware => (sound.aware robust aware).append [event]
  told := by
    intro flagged
    obtain ⟨robust, told⟩ := sound.told flagged
    refine ⟨robust, told.imp ?_ ?_⟩
    · exact mem_append_left _
    · exact mem_append_left _
  free := sound.free

theorem Sound.flag (sound : cfg.Sound) (robust : cfg.robustCaching = true)
    (told : .outOfSync ∈ cfg.seen ∨ .hashRead ∈ cfg.seen) :
    Sound { cfg with outOfSync := true } where
  aware := sound.aware
  told := fun _ => ⟨robust, told⟩
  free := sound.free

theorem Sound.become (sound : cfg.Sound)
    (justified : CfEvent.Justified cfg.seen) :
    Sound { cfg with outOfSync := false, changeAware := true } where
  aware := fun _ _ => justified
  told := fun flagged => by cases flagged
  free := sound.free

theorem changeAware_known {req : Bool}
    (known : cfg.robustCaching = false ∨ cfg.changeAware = true) :
    cfg.btGattChangeAware req = (cfg, true) := by
  unfold btGattChangeAware
  rcases known with known | known
  · simp [known]
  · cases robust : cfg.robustCaching <;> simp [known]

theorem changeAware_become (robust : cfg.robustCaching = true)
    (unaware : cfg.changeAware = false) (told : cfg.outOfSync = true) :
    cfg.btGattChangeAware true =
      ({ cfg with outOfSync := false, changeAware := true }, true) := by
  simp [btGattChangeAware, robust, unaware, told]

theorem changeAware_flag (robust : cfg.robustCaching = true)
    (unaware : cfg.changeAware = false) (untold : cfg.outOfSync = false) :
    cfg.btGattChangeAware true = ({ cfg with outOfSync := true }, false) := by
  simp [btGattChangeAware, robust, unaware, untold]

theorem changeAware_command (cfg : GattCfCfg) :
    (cfg.btGattChangeAware false).1 = cfg := by
  unfold btGattChangeAware
  split
  · rfl
  split
  · rfl
  · rfl

theorem Sound.dbHashRead (sound : cfg.Sound)
    (ready : cfg.outOfSync = true → CfEvent.Justified cfg.seen) :
    cfg.dbHashRead.Sound := by
  have noted := sound.note .hashRead
  unfold GattCfCfg.dbHashRead
  by_cases known : (cfg.note .hashRead).robustCaching = false ∨
      (cfg.note .hashRead).changeAware = true
  · rw [changeAware_known known]
    exact noted
  simp only [not_or, Bool.not_eq_false, Bool.not_eq_true] at known
  obtain ⟨robust, unaware⟩ := known
  cases told : (cfg.note .hashRead).outOfSync with
  | true =>
    rw [changeAware_become robust unaware told]
    exact noted.become ((ready told).append [.hashRead])
  | false =>
    rw [changeAware_flag robust unaware told]
    refine noted.flag robust (.inr ?_)
    exact mem_append_right _ (mem_singleton_self _)

theorem Sound.onRequest (sound : cfg.Sound) (checks hash : Bool) :
    (cfg.onRequest checks hash).Sound := by
  have noted := sound.note .request
  have ready : (cfg.note .request).outOfSync = true →
      CfEvent.Justified (cfg.note .request).seen :=
    fun flagged => CfEvent.justified_request (sound.told flagged).2
  have served : ∀ next : GattCfCfg, next.Sound →
      (next.outOfSync = true → CfEvent.Justified next.seen) →
        (if hash then next.dbHashRead else next).Sound := by
    intro next kept later
    split
    · exact kept.dbHashRead later
    · exact kept
  cases checks with
  | false => exact served _ noted ready
  | true =>
    simp only [GattCfCfg.onRequest, if_true]
    by_cases known : (cfg.note .request).robustCaching = false ∨
        (cfg.note .request).changeAware = true
    · rw [changeAware_known known]
      exact served _ noted ready
    simp only [not_or, Bool.not_eq_false, Bool.not_eq_true] at known
    obtain ⟨robust, unaware⟩ := known
    cases told : (cfg.note .request).outOfSync with
    | true =>
      rw [changeAware_become robust unaware told]
      exact served _ (noted.become (ready told)) fun flagged => by
        cases flagged
    | false =>
      rw [changeAware_flag robust unaware told]
      exact (noted.note .outOfSync).flag robust
        (.inl (mem_append_right _ (mem_singleton_self _)))

theorem cfSetValue_robust {value : List Byte} {data : Byte}
    (kept : cfg.cfSetValue value = some data)
    (robust : cfg.robustCaching = true) : data.getLsbD 0 = true := by
  cases value with
  | nil =>
    cases kept
    exact robust
  | cons =>
    simp only [cfSetValue] at kept
    split at kept
    · cases kept
    cases kept
    unfold robustCaching at robust
    simp [robust]

section

variable (sound : cfg.Sound)
include sound

theorem Sound.cfWrite (conn : GattConn) (offset : Nat)
    (value : List Byte) : (cfg.cfWrite conn offset value).Sound := by
  unfold GattCfCfg.cfWrite
  split
  · exact sound
  cases kept : cfg.cfSetValue value with
  | none => exact sound
  | some =>
    refine ⟨?_, ?_, ?_⟩
    · intro _ _
      exact .inr (.inl (mem_append_right _ (mem_singleton_self _)))
    · intro flagged
      obtain ⟨robust, told⟩ := sound.told flagged
      refine ⟨cfSetValue_robust kept robust, told.imp ?_ ?_⟩
      · exact mem_append_left _
      · exact mem_append_left _
    · intro free
      exact absurd free conn.dst_real

theorem Sound.onWrite (conn : GattConn) (req : Bool) (offset : Nat)
    (value : List Byte) : (cfg.onWrite conn req offset value).Sound := by
  cases req with
  | false =>
    simp only [GattCfCfg.onWrite, Bool.false_eq_true, if_false, changeAware_command]
    split
    · exact sound.cfWrite conn offset value
    · exact sound
  | true =>
    have noted := sound.note .request
    simp only [GattCfCfg.onWrite, if_true]
    by_cases known : (cfg.note .request).robustCaching = false ∨
        (cfg.note .request).changeAware = true
    · rw [changeAware_known known]
      exact noted.cfWrite conn offset value
    simp only [not_or, Bool.not_eq_false, Bool.not_eq_true] at known
    obtain ⟨robust, unaware⟩ := known
    cases told : (cfg.note .request).outOfSync with
    | true =>
      rw [changeAware_become robust unaware told]
      have justified := CfEvent.justified_request (sound.told told).2
      exact (noted.become justified).cfWrite conn offset value
    | false =>
      rw [changeAware_flag robust unaware told]
      exact (noted.note .outOfSync).flag robust
        (.inl (mem_append_right _ (mem_singleton_self _)))

theorem Sound.mark
    (justified : cfg.robustCaching = true → CfEvent.Justified cfg.seen) :
    (if cfg.robustCaching then { cfg with changeAware := true }
      else cfg).Sound := by
  split
  · rename_i robust
    exact ⟨fun _ _ => justified robust, sound.told, sound.free⟩
  · exact sound

theorem Sound.scRsp {confirmed : Bool}
    (fresh : cfg.robustCaching = true → cfg.changeAware = false →
      confirmed = true) : (cfg.scRsp confirmed).Sound := by
  cases confirmed with
  | true =>
    apply (sound.note .confirmed).mark
    intro _
    exact .inl (mem_append_right _ (mem_singleton_self _))
  | false =>
    apply sound.mark
    intro robust
    cases aware : cfg.changeAware with
    | true => exact sound.aware robust aware
    | false => exact absurd (fresh robust aware) (by decide)

theorem Sound.dbChanged : cfg.dbChanged.Sound := by
  have untold : cfg.robustCaching = false → cfg.outOfSync = false := by
    intro plain
    cases flagged : cfg.outOfSync with
    | false => rfl
    | true => exact absurd (sound.told flagged).1 (by simp [plain])
  have plain : cfg.robustCaching = false → Sound { cfg with seen := [] } := by
    intro plain
    refine ⟨?_, ?_, sound.free⟩
    · intro robust
      exact absurd (plain.symm.trans robust) (by decide)
    · intro flagged
      exact absurd ((untold plain).symm.trans flagged) (by decide)
  unfold GattCfCfg.dbChanged
  split
  · rename_i free
    exact plain (sound.free free)
  split
  · exact ⟨fun _ aware => (by cases aware), fun flagged => (by cases flagged),
      sound.free⟩
  · rename_i other
    exact plain (by simpa using other)

end

theorem cleared_sound (cfg : GattCfCfg) : cfg.cleared.Sound where
  aware := by
    intro _ aware
    cases aware
  told := by
    intro flagged
    cases flagged
  free := by
    intro _
    simp [robustCaching, cleared]

theorem Sound.removeCfCfg (sound : cfg.Sound) (conn : GattConn) (bonded : Bool) :
    (cfg.removeCfCfg conn bonded).Sound := by
  unfold GattCfCfg.removeCfCfg
  split
  · exact cfg.cleared_sound
  · exact ⟨sound.aware, fun flagged => (by cases flagged),
      fun free => absurd free conn.dst_real⟩

end GattCfCfg

namespace GattCaching

variable {state : GattCaching}

def Justified (state : GattCaching) : Prop :=
  ∀ cfg ∈ state.cfgs, cfg.robustCaching = true → cfg.changeAware = true →
    CfEvent.Justified cfg.seen

def Sound (state : GattCaching) : Prop :=
  ∀ cfg ∈ state.cfgs, cfg.Sound

/-- The indication that ends is confirmed and was sent after the latest change,
unless its client needs no mark. -/
def Confirmed (state : GattCaching) : CachingInput → Prop
  | .ended place (some conn) err =>
    ∀ sent cfg, state.sent[place]? = some sent → conn.index = sent.index →
      state.cfgs.find? (·.foundFor (some conn)) = some cfg →
      cfg.robustCaching = true → cfg.changeAware = false →
      err = 0 ∧ sent.fresh = true
  | _ => True

section

variable (sound : state.Sound)
include sound

theorem Sound.changeFirst {test : GattCfCfg → Bool}
    {change : GattCfCfg → GattCfCfg}
    (kept : ∀ cfg, state.cfgs.find? test = some cfg → (change cfg).Sound) :
    ∀ cfg ∈ (Data.changeFirst test change state.cfgs).getD state.cfgs,
      cfg.Sound := by
  cases changed : Data.changeFirst test change state.cfgs with
  | none => exact sound
  | some cfgs =>
    obtain ⟨_, item, _, split, tests, before, rfl⟩ := changeFirst_split changed
    have found : state.cfgs.find? test = some item := by
      rw [split]
      exact find_first tests before
    intro cfg member
    unfold Sound at sound
    rw [split] at sound
    rcases mem_append.mp member with member | member
    · exact sound cfg (mem_append_left _ member)
    rcases mem_cons.mp member with rfl | member
    · exact kept item found
    · exact sound cfg (by simp [member])

theorem Sound.edit {conn : Option GattConn} {change : GattCfCfg → GattCfCfg}
    (kept : ∀ cfg, cfg.Sound → (change cfg).Sound) :
    (state.edit conn change).Sound :=
  sound.changeFirst fun cfg found =>
    kept cfg (sound cfg (mem_of_find?_eq_some found))

theorem Sound.onEnded {place : Nat} {conn : Option GattConn} {err : Byte}
    (confirmed : state.Confirmed (.ended place conn err)) :
    (state.onEnded place conn err).Sound := by
  unfold GattCaching.onEnded
  cases told : state.sent[place]? with
  | none => exact sound
  | some sent =>
    have rest : GattCaching.Sound
        { state with sent := state.sent.eraseIdx place } := sound
    cases conn with
    | none =>
      apply rest.changeFirst
      intro cfg found
      apply (sound cfg (mem_of_find?_eq_some found)).scRsp
      intro robust
      have free : cfg.peer = .any := by
        simpa [GattCfCfg.foundFor] using find?_some found
      have plain := (sound cfg (mem_of_find?_eq_some found)).free free
      exact absurd (plain.symm.trans robust) (by decide)
    | some conn =>
      simp only
      split
      · rename_i here
        apply rest.changeFirst
        intro cfg found
        apply (sound cfg (mem_of_find?_eq_some found)).scRsp
        intro robust unaware
        obtain ⟨rfl, fresh⟩ := confirmed sent cfg told here found robust unaware
        simp [fresh]
      · exact sound

theorem Sound.step {input : CachingInput}
    (confirmed : state.Confirmed input) : (state.step input).Sound := by
  cases input with
  | changed =>
    intro cfg member
    obtain ⟨old, known, rfl⟩ := mem_map.mp member
    exact (sound old known).dbChanged
  | request conn checks hash =>
    exact sound.edit fun cfg kept => kept.onRequest checks hash
  | command =>
    apply sound.edit
    intro cfg kept
    rw [cfg.changeAware_command]
    exact kept
  | write conn req offset value =>
    simp only [GattCaching.step, GattCaching.onWrite]
    split
    · exact sound.edit fun cfg kept => kept.onWrite conn req offset value
    · exact sound.edit fun cfg kept => kept.cfWrite conn offset value
  | indicate => exact sound
  | ended => exact sound.onEnded confirmed
  | disconnected conn bonded =>
    exact sound.edit fun cfg kept => kept.removeCfCfg conn bonded
  | clear => exact sound.changeFirst fun cfg _ => cfg.cleared_sound

end

theorem start_sound (count : Nat) : (start count).Sound := by
  intro cfg member
  rw [eq_of_mem_replicate member]
  exact GattCfCfg.cleared_sound ⟨0, .any, 0, false, false, []⟩

end GattCaching

/-- In every run in which the indications that end are confirmed and fresh,
every client that is marked as aware knows of the latest change. -/
theorem robust_caching_justified (count : Nat) (inputs : List CachingInput)
    (confirmed : cachingMachine.Along GattCaching.Confirmed
      (GattCaching.start count) inputs) :
    cachingMachine.Always GattCaching.Justified (GattCaching.start count)
      inputs := by
  have always := Machine.always_of_along
    (fun state input (sound : state.Sound) admitted => sound.step admitted)
    (GattCaching.start_sound count) confirmed
  exact always.mono fun state sound cfg member => (sound cfg member).aware

def sampleClient : GattConn where
  index := 0
  id := 0
  dst := ⟨0, 9⟩
  initAddr := ⟨0, 9⟩
  dst_real := BtAddrLe.nine_real
  initAddr_real := BtAddrLe.nine_real

theorem robust_caching_justified_sample :
    cachingMachine.Always GattCaching.Justified (GattCaching.start 2)
      [.write sampleClient true 0 [1], .changed, .indicate sampleClient,
        .ended 0 (some sampleClient) 0, .changed,
        .request sampleClient false true, .request sampleClient true false,
        .disconnected sampleClient true] := by
  apply robust_caching_justified
  refine ⟨trivial, trivial, trivial, ?_, trivial, trivial, trivial, trivial, trivial⟩
  intro sent cfg told _ _ _ _
  cases told
  exact ⟨rfl, rfl⟩

theorem robust_caching_failed_indication :
    ¬ ∀ (count : Nat) (inputs : List CachingInput),
      cachingMachine.Always GattCaching.Justified (GattCaching.start count)
        inputs := by
  intro claimed
  have marked := (claimed 1 [.write sampleClient true 0 [1], .changed,
    .indicate sampleClient, .ended 0 (some sampleClient) 0x0e]).last
    ⟨0, ⟨0, 9⟩, 1, true, false, []⟩ (by decide) (by decide) rfl
  simp [CfEvent.Justified] at marked

end ZephyrBluetooth.Host
