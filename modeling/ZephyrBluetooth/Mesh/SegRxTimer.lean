import ZephyrBluetooth.Mesh.SegRxOnce

namespace ZephyrBluetooth.Mesh

open Data List Option

variable {holds : SegRx → Prop}

def SegRxs.Timed (state : SegRxs) : Prop :=
  ∀ rx ∈ state.rxs, rx.inUse = true → rx.ack = true

instance decidableTimed (state : SegRxs) : Decidable state.Timed :=
  inferInstanceAs (Decidable (∀ rx ∈ state.rxs, rx.inUse = true → rx.ack = true))

def NoLpn : SegRxInput → Prop
  | .seg env _ _ => env.lpnEstablished = false
  | _ => True

instance decidableNoLpn : DecidablePred NoLpn
  | .seg env _ _ => inferInstanceAs (Decidable (env.lpnEstablished = false))
  | .unseg _ _ _ | .segAck _ _ | .rxReset | .ivUpdate _ | .rplClear =>
    inferInstanceAs (Decidable True)

def opensRx (cfg : Config) (env : RxEnv) (netRx : NetRx) (head : SegHdr)
    (seqAuth : Nat) (rplSlot : Option Nat) (state : SegRxs) : Bool :=
  decide (head.segN < cfg.rxSegMax) &&
    !(cfg.friend && netRx.friendMatch && !netRx.localMatch && !env.queueHasSpace) &&
    !oldSeqAuth state.rpl rplSlot netRx (seqAuth % 2 ^ 24) &&
    !state.slab.isEmpty && (freeRx state.rxs).isSome

def fitsSeg (ctl : Bool) (head : SegHdr) (payload : List Byte) : Bool :=
  decide (head.segO = head.segN) || decide (payload.length = segLen ctl)

def OpensFitting (cfg : Config) (state : SegRxs) : SegRxInput → Prop
  | .seg env netRx (_ :: h1 :: h2 :: h3 :: first :: rest) =>
    let check := (rplCheck cfg state.rpl netRx true).1
    let head := segHdrOf h1 h2 h3
    let seqAuth := seqAuthRx state.ivIndex netRx head
    let found := segRxFind cfg netRx seqAuth state
    check.replay = false → head.segO ≤ head.segN → found.1 = none →
      opensRx cfg env netRx head seqAuth check.slot found.2.1 = true →
        fitsSeg netRx.ctl head (first :: rest) = true
  | _ => True

instance decidableOpensFitting (cfg : Config) (state : SegRxs) :
    DecidablePred (OpensFitting cfg state)
  | .seg _ _ (_ :: _ :: _ :: _ :: _ :: _) =>
    inferInstanceAs (Decidable (_ → _ → _ → _ → _))
  | .seg _ _ [] | .seg _ _ [_] | .seg _ _ [_, _] | .seg _ _ [_, _, _]
  | .seg _ _ [_, _, _, _] | .unseg _ _ _ | .segAck _ _ | .rxReset | .ivUpdate _
  | .rplClear => inferInstanceAs (Decidable True)

variable {rx : SegRx}

def SegRxs.Every (holds : SegRx → Prop) (state : SegRxs) : Prop :=
  ∀ rx ∈ state.rxs, holds rx

variable {state : SegRxs}

theorem SegRxs.Every.set {state after : SegRxs} {slot : Nat}
    (every : state.Every holds) (here : holds rx)
    (rxs : after.rxs = state.rxs.set slot rx) : after.Every holds := by
  intro other member
  rw [rxs] at member
  rcases mem_or_eq_of_mem_set member with old | rfl
  · exact every other old
  · exact here

section Reception

variable {cfg : Config} {env : RxEnv} {netRx : NetRx} {head : SegHdr}
variable {slot : Nat} {rx : SegRx} {state : SegRxs}

theorem SegRx.sized_fields (head : SegHdr) (payload : List Byte) (rx : SegRx) :
    (rx.sized head payload).inUse = rx.inUse ∧
      (rx.sized head payload).block = rx.block ∧
      (rx.sized head payload).segN = rx.segN := by
  unfold SegRx.sized
  split <;> exact ⟨rfl, rfl, rfl⟩

theorem SegRxs.Every.same {after : SegRxs} (every : state.Every holds)
    (rxs : after.rxs = state.rxs) : after.Every holds := by
  intro other member
  rw [rxs] at member
  exact every other member

def SegRx.opened (netRx : NetRx) (hdr : Byte) (seqAuth segN : Nat)
    (rx : SegRx) : SegRx :=
  { rx.alloc netRx hdr seqAuth segN with obo := netRx.friendMatch }

end Reception

section

variable (cfg : Config)
include cfg

theorem transUnseg_rxs (env : RxEnv) (netRx : NetRx)
    (buf : List Byte) (state : SegRxs) :
    (transUnseg cfg env netRx buf state).2.1.rxs = state.rxs := by
  unfold transUnseg
  cases buf with
  | nil => rfl
  | cons =>
    dsimp only
    split
    · rfl
    split
    · rfl
    · split <;> rfl

end

end ZephyrBluetooth.Mesh
