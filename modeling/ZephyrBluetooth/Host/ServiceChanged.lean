import ZephyrBluetooth.Host.CccValue

namespace ZephyrBluetooth.Host

open Data

/-! Service Changed in `gatt.c`: a changed handle range waits in `gatt_sc`, is
indicated to the connected clients that are subscribed, and is stored for the
others until they connect. -/

structure HandleRange where
  start : Nat
  stop : Nat
  real : 0 < stop
  deriving DecidableEq

structure GattScCfg where
  id : BitVec 8
  peer : BtAddrLe
  start : Nat
  stop : Nat
  deriving DecidableEq

namespace GattScCfg

def cleared : GattScCfg := ⟨0, .any, 0, 0⟩

def isFor (key : AddrWithId) (cfg : GattScCfg) : Bool :=
  decide (cfg.id = key.id) && decide (cfg.peer = key.addr)

def reset (cfg : GattScCfg) : GattScCfg :=
  { cfg with start := 0, stop := 0 }

/-- The end of `sc_save` with `update_range`. -/
def merge (start stop : Nat) (cfg : GattScCfg) : GattScCfg :=
  if cfg.start = 0 ∧ cfg.stop = 0 then { cfg with start, stop }
  else if cfg.start ≤ start ∧ stop ≤ cfg.stop then cfg
  else { cfg with start := min cfg.start start, stop := max cfg.stop stop }

end GattScCfg

/-- `gatt_sc`, with the flags `SC_RANGE_CHANGED` and `SC_INDICATE_PENDING`. -/
structure GattSc where
  start : Nat
  stop : Nat
  rangeChanged : Bool
  indicatePending : Bool

/-- An indication that awaits its confirmation; `restore` tells it was sent by
`sc_restore`, and `upTo` how many changes there had been when it was sent. -/
structure ScFlight where
  index : Nat
  start : Nat
  stop : Nat
  restore : Bool
  upTo : Nat

/-- `since` tells for each entry of the CCC how many changes its client knows
of: those before it subscribed, and those before the last indication that it
has confirmed. -/
structure ScState where
  ccc : CccState
  cfgs : List GattScCfg
  sc : GattSc
  flights : List ScFlight
  changes : List HandleRange
  since : Nat → Nat
  bonds : List AddrWithId

/-- `accepts` and `accepted` tell whether an indication can be sent on a
connection, and `ready` is the flag `BT_DEV_READY`. -/
inductive ScInput where
  | changed (range : HandleRange)
  | process (ready : Bool) (accepts : Nat → Bool)
  | ended (place : Nat) (err : Nat)
  | connect (conn : GattConn) (security : LinkSecurity) (accepted : Bool)
  | encryptChange (index : Nat) (security : LinkSecurity) (accepted : Bool)
  | write (index offset : Nat) (data : List (BitVec 8))
  | resolve (index : Nat) (dst : BtAddrLe) (real : dst ≠ .any)
  | bond (peer : AddrWithId)
  | disconnect (index : Nat)

def cccIndicate : BitVec 16 := 2

def scPerm : CccPerm := ⟨true, false, false⟩

def findScCfg (cfgs : List GattScCfg) (key : AddrWithId) : Option GattScCfg :=
  cfgs.find? (GattScCfg.isFor key)

/-- A change to the record that `find_sc_cfg` finds. -/
def changeScCfg (key : AddrWithId) (change : GattScCfg → GattScCfg)
    (cfgs : List GattScCfg) : List GattScCfg :=
  (changeFirst (GattScCfg.isFor key) change cfgs).getD cfgs

def scSave (key : AddrWithId) (start stop : Nat) (cfgs : List GattScCfg) :
    List GattScCfg :=
  if (findScCfg cfgs key).isSome then
    changeScCfg key (GattScCfg.merge start stop) cfgs
  else
    changeScCfg ⟨.any, 0⟩ (fun cfg => GattScCfg.merge start stop
        { cfg with id := key.id, peer := key.addr }) cfgs

def scClear (key : AddrWithId) (cfgs : List GattScCfg) : List GattScCfg :=
  changeScCfg key (fun _ => .cleared) cfgs

def GattConn.key (conn : GattConn) : AddrWithId := ⟨conn.dst, conn.id⟩

namespace ScState

def init (slots records : Nat) : ScState where
  ccc := CccState.init slots
  cfgs := List.replicate records .cleared
  sc := ⟨0, 0, false, false⟩
  flights := []
  changes := []
  since := fun _ => 0
  bonds := []

variable (state : ScState)

/-- `bt_conn_lookup_addr_le`, among the connections that are up. -/
def lookup (id : BitVec 8) (peer : BtAddrLe) : Option GattConn :=
  state.ccc.conns.find? fun conn => conn.isPeerAddrLe id peer

def scIndicate (range : HandleRange) : ScState :=
  let sc :=
    if !state.sc.rangeChanged then
      { state.sc with
        start := range.start
        stop := range.stop
        rangeChanged := true }
    else if state.sc.start ≤ range.start ∧ range.stop ≤ state.sc.stop then
      state.sc
    else
      { state.sc with
        start := min state.sc.start range.start
        stop := max state.sc.stop range.stop }
  { state with sc, changes := state.changes ++ [range] }

/-- The first loop of `notify_cb`: the range is saved for the peers that are
not connected. -/
def saveAll (start stop : Nat) (cfgs : List GattScCfg) : List GattScCfg :=
  cfgs.foldl (fun saved cfg =>
      if cfg.peer = .any then saved
      else if (state.lookup cfg.id cfg.peer).isSome then saved
      else scSave ⟨cfg.peer, cfg.id⟩ start stop saved) cfgs

/-- The second loop of `notify_cb`, which stops at the first error. -/
def indicateAll (accepts : Nat → Bool) (start stop : Nat) :
    List CccCfg → List ScFlight
  | [] => []
  | cfg :: rest =>
    if cfg.value ≠ cccIndicate then indicateAll accepts start stop rest
    else
      match state.lookup cfg.id cfg.peer with
      | none => indicateAll accepts start stop rest
      | some conn =>
        if accepts conn.index then
          ⟨conn.index, start, stop, false, state.changes.length⟩ ::
            indicateAll accepts start stop rest
        else []

def scProcess (ready : Bool) (accepts : Nat → Bool) : ScState :=
  let start := state.sc.start
  let stop := state.sc.stop
  let sc := { state.sc with start := 0, stop := 0, rangeChanged := false }
  if !ready then { state with sc }
  else
    let sent := state.indicateAll accepts start stop state.ccc.cfgs
    { state with
      sc := { sc with indicatePending := sc.indicatePending || !sent.isEmpty }
      cfgs := state.saveAll start stop state.cfgs
      flights := state.flights ++ sent }

def confirm (index upTo : Nat) : ScState :=
  match state.ccc.find index with
  | none => state
  | some conn =>
    { state with
      since := fun slot =>
        match state.ccc.cfgs[slot]? with
        | none => state.since slot
        | some cfg =>
          if conn.isPeer cfg then max (state.since slot) upTo
          else state.since slot }

/-- `sc_indicate_rsp` and `sc_restore_rsp`. -/
def onEnded (place err : Nat) : ScState :=
  match state.flights[place]? with
  | none => state
  | some flight =>
    let landed :=
      { state with
        flights := state.flights.eraseIdx place
        sc := { state.sc with
          indicatePending := state.sc.indicatePending && flight.restore } }
    if err = 0 then landed.confirm flight.index flight.upTo else landed

def scRestore (conn : GattConn) (accepted : Bool) : ScState :=
  match findScCfg state.cfgs conn.key with
  | none => state
  | some cfg =>
    if cfg.start = 0 ∧ cfg.stop = 0 then state
    else
      { state with
        cfgs := changeScCfg conn.key GattScCfg.reset state.cfgs
        flights :=
          if accepted then
            state.flights ++
              [⟨conn.index, cfg.start, cfg.stop, true, state.changes.length⟩]
          else state.flights }

def updateCcc (conn : GattConn) (security : LinkSecurity) (accepted : Bool) :
    ScState :=
  let next := { state with ccc := state.ccc.updateCcc scPerm conn security }
  if state.ccc.restores scPerm conn security then next.scRestore conn accepted
  else next

def onConnect (conn : GattConn) (security : LinkSecurity) (accepted : Bool) :
    ScState :=
  if state.ccc.admits conn then
    { state with ccc := state.ccc.joined conn }.updateCcc conn security accepted
  else state

def slotOf (conn : GattConn) : Nat :=
  if state.ccc.cfgs.any conn.isPeer then state.ccc.cfgs.findIdx conn.isPeer
  else state.ccc.cfgs.findIdx fun cfg => decide (cfg.peer = .any)

def subscribedAt (slot : Nat) : Bool :=
  match state.ccc.cfgs[slot]? with
  | none => false
  | some cfg => decide (cfg.value = cccIndicate)

/-- `bt_gatt_attr_write_ccc` with `sc_ccc_cfg_write`. -/
def onWrite (conn : GattConn) (offset : Nat) (data : List (BitVec 8)) :
    ScState :=
  match CccState.writtenValue offset data with
  | none => state
  | some value =>
    match state.ccc.claim conn value with
    | none => state
    | some _ =>
      { state with
        ccc := state.ccc.attrWriteCcc conn offset data true
        cfgs :=
          if value = cccIndicate then scSave conn.key 0 0 state.cfgs
          else scClear conn.key state.cfgs
        since := fun slot =>
          if slot = state.slotOf conn && !state.subscribedAt slot then
            state.changes.length
          else state.since slot }

def withConns (conns : List GattConn) : ScState :=
  { state with ccc := { state.ccc with conns } }

def onResolve (index : Nat) (dst : BtAddrLe) (real : dst ≠ .any) : ScState :=
  match state.ccc.find index with
  | none => state
  | some conn =>
    let resolved := { conn with dst, dst_real := real }
    if conn.dst ≠ conn.initAddr ∨ state.ccc.conns.any (fun other =>
        decide (other.index ≠ index) && other.meets resolved) then state
    else
      state.withConns (state.ccc.conns.map fun other =>
        if other.index = index then resolved else other)

/-- `disconnected_cb`, after the outstanding indications have failed. -/
def onDisconnect (index : Nat) : ScState :=
  match state.ccc.find index with
  | none => state
  | some conn =>
    let bonded := decide (conn.key ∈ state.bonds)
    let failed := state.flights.filter fun flight =>
      decide (flight.index = index)
    { state with
      ccc := state.ccc.disconnectedCb conn bonded
      cfgs :=
        if bonded || decide (state.ccc.value = 0) then state.cfgs
        else
          (state.ccc.cfgs.filter fun cfg =>
            decide (cfg.value ≠ 0) && conn.isPeer cfg).foldl
              (fun cfgs _ => scClear conn.key cfgs) state.cfgs
      sc := { state.sc with
        indicatePending :=
          state.sc.indicatePending && failed.all (·.restore) }
      flights := state.flights.filter fun flight =>
        decide (flight.index ≠ index) }

def step : ScInput → ScState
  | .changed range => state.scIndicate range
  | .process ready accepts => state.scProcess ready accepts
  | .ended place err => state.onEnded place err
  | .connect conn security accepted => state.onConnect conn security accepted
  | .encryptChange index security accepted =>
    match state.ccc.find index with
    | none => state
    | some conn => state.updateCcc conn security accepted
  | .write index offset data =>
    match state.ccc.find index with
    | none => state
    | some conn => state.onWrite conn offset data
  | .resolve index dst real => state.onResolve index dst real
  | .bond peer => { state with bonds := peer :: state.bonds }
  | .disconnect index => state.onDisconnect index

end ScState

def scMachine : Machine ScState ScInput Unit :=
  ⟨fun state input => (state.step input, [])⟩

end ZephyrBluetooth.Host
