import ZephyrBluetooth.Host.L2capAttach

namespace ZephyrBluetooth.Host

open Data List Option

variable {address count : Nat} {change : LeChan → LeChan} {env : L2capEnv}

/-! Requests, their identifiers and their timers. -/

namespace L2capConn

open L2cap

structure Idle (chan : LeChan) : Prop where
  rtx : chan.rtx = false
  ident : chan.ident = 0
  encryptPending : chan.encryptPending = false

structure Timed (conn : L2capConn) : Prop where
  nodup : conn.channels.Nodup
  waiting : ∀ address, (conn.chan address).rtx = true →
    (conn.chan address).request ≠ none
  numbered : ∀ address, (conn.chan address).rtx = true →
    (conn.chan address).ident ≠ 0
  fixed : ∀ address ∈ fixedCids, Idle (conn.chan address)
  shared : conn.halted = false → ∀ address,
    (conn.chan address).rtx = true → ∀ other ∈ conn.channels,
      (conn.chan other).ident = (conn.chan address).ident →
        (conn.chan other).request ≠ none

structure MayRun (conn : L2capConn) (address : Nat) (chan : LeChan) :
    Prop where
  waiting : chan.request ≠ none
  numbered : chan.ident ≠ 0
  shared : conn.halted = false → ∀ other ∈ conn.channels, other ≠ address →
    (conn.chan other).ident = chan.ident → (conn.chan other).request ≠ none

def MayStay (conn : L2capConn) (address : Nat) (chan : LeChan) : Prop :=
  conn.halted = false → ∀ other, other ≠ address →
    (conn.chan other).rtx = true → chan.ident = (conn.chan other).ident →
      chan.request ≠ none

namespace Timed

variable {conn changed : L2capConn}

section

variable (timed : conn.Timed)
include timed

theorem one
    (others : ∀ other, other ≠ address → changed.chan other = conn.chan other)
    (nodup : changed.channels.Nodup)
    (channels : ∀ other ∈ changed.channels, other = address ∨ other ∈ conn.channels)
    (halted : changed.halted = false → conn.halted = false)
    (mayRun : (changed.chan address).rtx = true →
      conn.MayRun address (changed.chan address))
    (mayStay : address ∈ changed.channels →
      conn.MayStay address (changed.chan address))
    (idle : address ∈ fixedCids → Idle (changed.chan address)) :
    changed.Timed := by
  refine ⟨nodup, ?_, ?_, ?_, ?_⟩
  · intro other running
    by_cases same : other = address
    · subst same
      exact (mayRun running).waiting
    · rw [others other same] at running ⊢
      exact timed.waiting other running
  · intro other running
    by_cases same : other = address
    · subst same
      exact (mayRun running).numbered
    · rw [others other same] at running ⊢
      exact timed.numbered other running
  · intro other fixed
    by_cases same : other = address
    · subst same
      exact idle fixed
    · rw [others other same]
      exact timed.fixed other fixed
  · intro alive holder running other listed sameIdent
    have aliveBefore := halted alive
    by_cases isHolder : holder = address
    · subst isHolder
      by_cases same : other = holder
      · subst same
        exact (mayRun running).waiting
      rw [others other same] at sameIdent ⊢
      exact (mayRun running).shared aliveBefore other
        ((channels other listed).resolve_left same) same sameIdent
    · rw [others holder isHolder] at running sameIdent
      by_cases same : other = address
      · subst same
        exact mayStay listed aliveBefore holder isHolder running sameIdent
      rw [others other same] at sameIdent ⊢
      exact timed.shared aliveBefore holder running other
        ((channels other listed).resolve_left same) sameIdent

theorem set (mayRun : (change (conn.chan address)).rtx = true →
      conn.MayRun address (change (conn.chan address)))
    (mayStay : conn.MayStay address (change (conn.chan address)))
    (idle : address ∈ fixedCids → Idle (change (conn.chan address))) :
    (conn.set address change).Timed := by
  apply timed.one
  · exact fun other different => set_chan_ne _ _ _ different
  · exact timed.nodup
  · exact fun other listed => .inr listed
  · exact id
  · rw [set_chan_self]
    exact mayRun
  · intro _
    rw [set_chan_self]
    exact mayStay
  · rw [set_chan_self]
    exact idle

theorem tweak (rtx : ∀ chan, (change chan).rtx = true → chan.rtx = true)
    (ident : ∀ chan, (change chan).ident = chan.ident)
    (request : ∀ chan, (change chan).request = chan.request)
    (pending : ∀ chan, (change chan).encryptPending = true →
      chan.encryptPending = true ∨ address ∉ fixedCids) :
    (conn.set address change).Timed := by
  refine ⟨timed.nodup, ?_, ?_, ?_, ?_⟩
  · intro other running
    by_cases same : other = address
    · subst same
      rw [set_chan_self] at running ⊢
      rw [request]
      exact timed.waiting other (rtx _ running)
    · rw [set_chan_ne _ _ _ same] at running ⊢
      exact timed.waiting other running
  · intro other running
    by_cases same : other = address
    · subst same
      rw [set_chan_self] at running ⊢
      rw [ident]
      exact timed.numbered other (rtx _ running)
    · rw [set_chan_ne _ _ _ same] at running ⊢
      exact timed.numbered other running
  · intro other fixed
    have before := timed.fixed other fixed
    by_cases same : other = address
    · subst same
      rw [set_chan_self]
      refine ⟨?_, (ident _).trans before.ident, ?_⟩
      · rw [Bool.eq_false_iff]
        intro running
        exact absurd (rtx _ running) (Bool.eq_false_iff.mp before.rtx)
      · rw [Bool.eq_false_iff]
        intro waits
        rcases pending _ waits with was | dynamic
        · exact absurd was (Bool.eq_false_iff.mp before.encryptPending)
        · exact dynamic fixed
    · rw [set_chan_ne _ _ _ same]
      exact before
  · have sameIdent : ∀ other, ((conn.set address change).chan other).ident =
        (conn.chan other).ident := by
      intro other
      by_cases same : other = address
      · subst same
        rw [set_chan_self]
        exact ident _
      · rw [set_chan_ne _ _ _ same]
    have sameRequest : ∀ other, ((conn.set address change).chan other).request =
          (conn.chan other).request := by
      intro other
      by_cases same : other = address
      · subst same
        rw [set_chan_self]
        exact request _
      · rw [set_chan_ne _ _ _ same]
    intro alive holder running other listed equal
    rw [sameIdent, sameIdent] at equal
    rw [sameRequest]
    apply timed.shared alive holder _ other listed equal
    by_cases same : holder = address
    · subst same
      rw [set_chan_self] at running
      exact rtx _ running
    · rwa [set_chan_ne _ _ _ same] at running

theorem settle (rtx : (change (conn.chan address)).rtx = false)
    (ident : ∀ chan, (change chan).ident = 0)
    (pending : ∀ chan, (change chan).encryptPending = chan.encryptPending) :
    (conn.set address change).Timed := by
  apply timed.set
  · rw [rtx]
    exact nofun
  · intro _ other _ running sameIdent
    rw [ident] at sameIdent
    exact absurd sameIdent.symm (timed.numbered other running)
  · intro fixed
    refine ⟨rtx, ident _, ?_⟩
    rw [pending]
    exact (timed.fixed address fixed).encryptPending

theorem remove (address : Nat) : (conn.chanRemove address).Timed :=
  ⟨timed.nodup.erase address, timed.waiting, timed.numbered, timed.fixed,
    fun alive holder running other listed =>
      timed.shared alive holder running other (mem_of_mem_erase listed)⟩

theorem unlisted (absent : address ∉ conn.channels)
    (rtx : (change (conn.chan address)).rtx = false)
    (idle : address ∈ fixedCids → Idle (change (conn.chan address))) :
    (conn.set address change).Timed := by
  apply timed.one
  · exact fun other different => set_chan_ne _ _ _ different
  · exact timed.nodup
  · exact fun other listed => .inr listed
  · exact id
  · rw [set_chan_self, rtx]
    exact nofun
  · exact fun listed => absurd listed absent
  · rw [set_chan_self]
    exact idle

theorem delRtx (address : Nat) :
    ((conn.chan address).rtx && decide (address ∈ fixedCids) &&
      decide (address ≠ cidLeSig)) = false := by
  by_cases fixed : address ∈ fixedCids
  · rw [(timed.fixed address fixed).rtx]
    rfl
  · simp [fixed]

theorem drop (address : Nat) :
    ((conn.chanRemove address).chanDel address).Timed := by
  apply (timed.remove address).unlisted
  · rw [chanRemove_channels, timed.nodup.mem_erase_iff]
    exact fun listed => listed.1 rfl
  · exact timed.delRtx address
  · intro fixed
    have before := timed.fixed address fixed
    exact ⟨timed.delRtx address, before.ident, before.encryptPending⟩

theorem halt : Timed { conn with halted := true } :=
  ⟨timed.nodup, timed.waiting, timed.numbered, timed.fixed,
    nofun⟩

theorem getIdent : conn.getIdent.Timed :=
  ⟨timed.nodup, timed.waiting, timed.numbered, timed.fixed, timed.shared⟩

end

end Timed

theorem nextIdent_bounds (conn : L2capConn) :
    1 ≤ conn.nextIdent ∧ conn.nextIdent ≤ 255 := by
  unfold nextIdent
  split
  · decide
  · rename_i nonzero
    omega

def drawn (conn : L2capConn) (index : Nat) : Nat :=
  (conn.nextIdent - 1 + index) % 255 + 1

theorem drawn_zero (conn : L2capConn) : conn.drawn 0 = conn.nextIdent := by
  have bounds := conn.nextIdent_bounds
  unfold drawn
  omega

theorem drawn_getIdent (conn : L2capConn) (index : Nat) :
    conn.getIdent.drawn index = conn.drawn (index + 1) := by
  have bounds := conn.nextIdent_bounds
  have next : conn.getIdent.nextIdent = conn.nextIdent % 255 + 1 := by
    unfold getIdent
    generalize conn.nextIdent = ident at bounds ⊢
    unfold nextIdent
    simp only
    split
    · omega
    · omega
  unfold drawn
  rw [next]
  omega

structure FreshFor (conn : L2capConn) (count : Nat) : Prop where
  few : count ≤ 255
  unused : ∀ address, address ∈ conn.channels ∨ (conn.chan address).rtx = true →
      ∀ index < count, (conn.chan address).ident ≠ conn.drawn index

def Fresh (conn : L2capConn) (group : List Nat) : Prop :=
  ∀ other, other ∉ group → other ∈ conn.channels ∨ (conn.chan other).rtx = true →
      (conn.chan other).ident ≠ conn.nextIdent

variable {conn : L2capConn}

theorem FreshFor.fresh (fresh : conn.FreshFor (count + 1))
    (group : List Nat) : conn.Fresh group := by
  intro other _ carries
  have unused := fresh.unused other carries 0 (Nat.succ_pos count)
  rwa [drawn_zero] at unused

variable {conn changed : L2capConn}

theorem Timed.group (timed : conn.Timed)
    {group : List Nat} (fresh : conn.Fresh group)
    (dynamic : ∀ member ∈ group, member ∉ fixedCids)
    (others : ∀ other, other ∉ group → changed.chan other = conn.chan other)
    (nodup : changed.channels.Nodup)
    (channels : ∀ other ∈ changed.channels, other ∈ group ∨ other ∈ conn.channels)
    (halted : changed.halted = false → conn.halted = false)
    (ident : ∀ member ∈ group, (changed.chan member).ident = conn.nextIdent)
    (running : ∀ member ∈ group, (changed.chan member).rtx = true →
      (changed.chan member).request ≠ none ∧
        ∀ mate ∈ group, mate ∈ changed.channels →
          (changed.chan mate).request ≠ none) : changed.Timed := by
  have bounds := conn.nextIdent_bounds
  refine ⟨nodup, ?_, ?_, ?_, ?_⟩
  · intro other runs
    by_cases inGroup : other ∈ group
    · exact (running other inGroup runs).1
    · rw [others other inGroup] at runs ⊢
      exact timed.waiting other runs
  · intro other runs
    by_cases inGroup : other ∈ group
    · rw [ident other inGroup]
      omega
    · rw [others other inGroup] at runs ⊢
      exact timed.numbered other runs
  · intro other fixed
    rw [others other fun inGroup => dynamic other inGroup fixed]
    exact timed.fixed other fixed
  · intro alive holder runs other listed sameIdent
    by_cases holderIn : holder ∈ group
    · by_cases otherIn : other ∈ group
      · exact (running holder holderIn runs).2 other otherIn listed
      rw [others other otherIn, ident holder holderIn] at sameIdent
      exact absurd sameIdent (fresh other otherIn
        (.inl ((channels other listed).resolve_left otherIn)))
    · rw [others holder holderIn] at runs sameIdent
      by_cases otherIn : other ∈ group
      · rw [ident other otherIn] at sameIdent
        exact absurd sameIdent.symm (fresh holder holderIn (.inr runs))
      rw [others other otherIn] at sameIdent ⊢
      exact timed.shared (halted alive) holder runs other
        ((channels other listed).resolve_left otherIn) sameIdent

structure Draws (conn : L2capConn) (address : Nat) (changed : L2capConn) :
    Prop where
  others : ∀ other, other ≠ address → changed.chan other = conn.chan other
  channels : changed.channels = conn.channels
  halted : changed.halted = conn.halted
  counter : changed.ident = conn.nextIdent
  ident : (changed.chan address).ident = conn.nextIdent
  running : (changed.chan address).rtx = true →
    (changed.chan address).request ≠ none ∨ ((conn.chan address).rtx = true ∧
        (changed.chan address).request = (conn.chan address).request)

theorem draws_send (conn : L2capConn) (env : L2capEnv) (address : Nat)
    (request : L2capRequest) : conn.Draws address
      (((conn.getIdent.setIdent conn.nextIdent address).noteRequest env
        conn.nextIdent request address).chanSendReq env conn.nextIdent address) := by
  unfold chanSendReq noteRequest setIdent
  split
  · refine ⟨?_, rfl, rfl, rfl, ?_, ?_⟩
    · intro other different
      rw [set_chan_ne _ _ _ different, set_chan_ne _ _ _ different,
        set_chan_ne _ _ _ different, getIdent_chan]
    · simp
    · simp
  · refine ⟨?_, rfl, rfl, rfl, ?_, ?_⟩
    · intro other different
      rw [set_chan_ne _ _ _ different, getIdent_chan]
    · simp
    · intro running
      rw [set_chan_self, getIdent_chan] at running ⊢
      exact .inr ⟨running, rfl⟩

theorem draws_numbered (conn : L2capConn) (address : Nat) :
    conn.Draws address (conn.getIdent.setIdent conn.nextIdent address) := by
  unfold setIdent
  refine ⟨?_, rfl, rfl, rfl, ?_, ?_⟩
  · intro other different
    rw [set_chan_ne _ _ _ different, getIdent_chan]
  · simp
  · intro running
    rw [set_chan_self, getIdent_chan] at running ⊢
    exact .inr ⟨running, rfl⟩

theorem leConnReqSend_draws (conn : L2capConn) (env : L2capEnv) (address : Nat) :
    conn.Draws address (conn.leConnReqSend env address).1 := by
  unfold leConnReqSend
  simp only
  split
  · exact conn.draws_send env address .leConn
  · exact conn.draws_numbered address

theorem Draws.adjust (draws : conn.Draws address changed)
    (rtx : ∀ chan, (change chan).rtx = chan.rtx)
    (ident : ∀ chan, (change chan).ident = chan.ident)
    (request : ∀ chan, (change chan).request = chan.request) :
    conn.Draws address (changed.set address change) := by
  refine ⟨?_, draws.channels, draws.halted, draws.counter, ?_, ?_⟩
  · intro other different
    rw [set_chan_ne _ _ _ different]
    exact draws.others other different
  · rw [set_chan_self, ident]
    exact draws.ident
  · rw [set_chan_self, rtx, request]
    exact draws.running

theorem chanDisconnect_draws (env : L2capEnv)
    (attached : (conn.chan address).attached = true) :
    conn.Draws address (conn.chanDisconnect env address) := by
  unfold chanDisconnect
  rw [if_pos attached]
  simp only
  split
  · exact (conn.draws_send env address .disconn).adjust (fun _ => rfl)
      (fun _ => rfl) (fun _ => rfl)
  · exact conn.draws_numbered address

section

variable (draws : conn.Draws address changed)
include draws

theorem Draws.running_request
    (waiting : (conn.chan address).rtx = true → (conn.chan address).request ≠ none)
    (running : (changed.chan address).rtx = true) :
    (changed.chan address).request ≠ none := by
  rcases draws.running running with sent | ⟨before, same⟩
  · exact sent
  · rw [same]
    exact waiting before

theorem Draws.timed (timed : conn.Timed) (fresh : conn.Fresh [address])
    (dynamic : address ∉ fixedCids) : changed.Timed := by
  apply timed.group fresh
  · intro member inGroup
    rw [mem_singleton.mp inGroup]
    exact dynamic
  · intro other outside
    exact draws.others other fun same => outside (by simp [same])
  · rw [draws.channels]
    exact timed.nodup
  · intro other listed
    rw [draws.channels] at listed
    exact .inr listed
  · rw [draws.halted]
    exact id
  · intro member inGroup
    rw [mem_singleton.mp inGroup]
    exact draws.ident
  · intro member inGroup running
    rw [mem_singleton.mp inGroup] at running ⊢
    have request := draws.running_request (timed.waiting address) running
    refine ⟨request, ?_⟩
    intro mate mateIn _
    rw [mem_singleton.mp mateIn]
    exact request

theorem Draws.freshFor (fresh : conn.FreshFor (count + 1)) :
    changed.FreshFor count := by
  have next : ∀ index, changed.drawn index = conn.drawn (index + 1) := by
    intro index
    rw [← drawn_getIdent]
    unfold drawn nextIdent getIdent
    rw [draws.counter]
  refine ⟨by have := fresh.few; omega, ?_⟩
  intro other carries index below
  rw [next]
  by_cases same : other = address
  · subst same
    have few := fresh.few
    rw [draws.ident, ← drawn_zero]
    unfold drawn
    omega
  · rw [draws.others other same, draws.channels] at carries
    rw [draws.others other same]
    exact fresh.unused other carries (index + 1) (by omega)

end

theorem FreshFor.mono {smaller : Nat}
    (fresh : conn.FreshFor count) (fewer : smaller ≤ count)
    (counter : changed.ident = conn.ident) (carries : ∀ address,
      address ∈ changed.channels ∨ (changed.chan address).rtx = true →
        (changed.chan address).ident = 0 ∨
          ((address ∈ conn.channels ∨ (conn.chan address).rtx = true) ∧
            (changed.chan address).ident = (conn.chan address).ident)) :
    changed.FreshFor smaller := by
  have same : ∀ index, changed.drawn index = conn.drawn index := by
    intro index
    unfold drawn nextIdent
    rw [counter]
  refine ⟨Nat.le_trans fewer fresh.few, ?_⟩
  intro address held index below
  rw [same]
  rcases carries address held with zero | ⟨before, equal⟩
  · rw [zero]
    unfold drawn
    omega
  · rw [equal]
    exact fresh.unused address before index (Nat.lt_of_lt_of_le below fewer)

theorem FreshFor.drop {smaller : Nat}
    (fresh : conn.FreshFor count) (fewer : smaller ≤ count) (address : Nat) :
    ((conn.chanRemove address).chanDel address).FreshFor smaller := by
  refine FreshFor.mono fresh fewer ?_ ?_
  · rfl
  intro other carries
  refine .inr ?_
  by_cases same : other = address
  · subst same
    unfold chanDel at carries ⊢
    rw [set_chan_self] at carries ⊢
    refine ⟨?_, rfl⟩
    rcases carries with listed | running
    · exact .inl (mem_of_mem_erase listed)
    · simp only [Bool.and_eq_true] at running
      exact .inr running.1.1
  · unfold chanDel at carries ⊢
    rw [set_chan_ne _ _ _ same] at carries ⊢
    exact ⟨carries.imp mem_of_mem_erase id, rfl⟩

theorem foldl_set_chan (change : LeChan → LeChan)
    (idem : ∀ chan, change (change chan) = change chan)
    (addresses : List Nat) (conn : L2capConn) (address : Nat) :
    ((addresses.foldl (fun conn address => conn.set address change)
      conn).chan address) =
      if address ∈ addresses then change (conn.chan address)
      else conn.chan address := by
  induction addresses generalizing conn with
  | nil => rfl
  | cons head rest ih =>
    rw [foldl_cons, ih]
    by_cases same : address = head
    · subst same
      rw [set_chan_self, if_pos mem_cons_self, idem]
      split
      · rfl
      · rfl
    · rw [set_chan_ne _ _ _ same]
      simp only [mem_cons, same, false_or]

theorem foldl_set_rest (change : LeChan → LeChan) (addresses : List Nat)
    (conn : L2capConn) :
    (addresses.foldl (fun conn address => conn.set address change)
        conn).channels = conn.channels ∧
      (addresses.foldl (fun conn address => conn.set address change)
        conn).halted = conn.halted ∧
      (addresses.foldl (fun conn address => conn.set address change)
        conn).ident = conn.ident := by
  induction addresses generalizing conn with
  | nil => exact ⟨rfl, rfl, rfl⟩
  | cons head rest ih => exact ih (conn.set head change)

def requestGroup (conn : L2capConn) (env : L2capEnv) (request : L2capRequest)
    (number : LeChan → LeChan) (first : Nat) (rest : List Nat) : L2capConn :=
  ((first :: rest).foldl (noteRequest · env conn.nextIdent request)
    ((first :: rest).foldl (fun conn address => conn.set address number)
      conn.getIdent)).chanSendReq env conn.nextIdent first

structure Requests (conn : L2capConn) (env : L2capEnv) (group : List Nat)
    (changed : L2capConn) : Prop where
  others : ∀ other, other ∉ group → changed.chan other = conn.chan other
  channels : changed.channels = conn.channels
  halted : changed.halted = conn.halted
  counter : changed.ident = conn.nextIdent
  ident : ∀ member ∈ group, (changed.chan member).ident = conn.nextIdent
  sent : env.send conn.nextIdent = true →
    ∀ member ∈ group, (changed.chan member).request ≠ none
  unsent : env.send conn.nextIdent = false → ∀ member ∈ group,
    (changed.chan member).rtx = (conn.chan member).rtx ∧
      (changed.chan member).request = (conn.chan member).request

theorem requestGroup_requests (conn : L2capConn) (env : L2capEnv)
    (request : L2capRequest) (number : LeChan → LeChan)
    (idem : ∀ chan, number (number chan) = number chan)
    (ident : ∀ chan, (number chan).ident = conn.nextIdent)
    (same : ∀ chan, (number chan).rtx = chan.rtx ∧
      (number chan).request = chan.request) (first : Nat) (rest : List Nat) :
    conn.Requests env (first :: rest)
      (conn.requestGroup env request number first rest) := by
  have numbered := foldl_set_chan number idem (first :: rest) conn.getIdent
  have numberedRest := foldl_set_rest number (first :: rest) conn.getIdent
  cases sends : env.send conn.nextIdent with
  | false =>
    have skips : ∀ (later : L2capConn) (address : Nat),
        later.noteRequest env conn.nextIdent request address = later := by
      intro later address
      unfold noteRequest
      rw [sends, if_neg Bool.false_ne_true]
    have notes : conn.requestGroup env request number first rest =
        (first :: rest).foldl (fun conn address => conn.set address number)
          conn.getIdent := by
      unfold requestGroup chanSendReq
      rw [sends, if_neg Bool.false_ne_true]
      generalize (first :: rest).foldl
        (fun conn address => conn.set address number) conn.getIdent = base
      induction (first :: rest) with
      | nil => rfl
      | cons head tail ih =>
        rw [foldl_cons, skips]
        exact ih
    rw [notes]
    refine ⟨?_, numberedRest.1, numberedRest.2.1, numberedRest.2.2, ?_, ?_, ?_⟩
    · intro other outside
      rw [numbered, if_neg outside, getIdent_chan]
    · intro member inGroup
      rw [numbered, if_pos inGroup]
      exact ident _
    · intro sent
      rw [sends] at sent
      exact nomatch sent
    · intro _ member inGroup
      rw [numbered, if_pos inGroup, getIdent_chan]
      exact same _
  | true =>
    have notes : conn.requestGroup env request number first rest =
        ((first :: rest).foldl (fun conn address => conn.set address
            fun chan => { chan with request := some request })
          ((first :: rest).foldl (fun conn address => conn.set address number)
            conn.getIdent)).set first fun chan =>
              { chan with rtx := true } := by
      unfold requestGroup chanSendReq
      rw [sends, if_pos rfl]
      congr 1
      generalize (first :: rest).foldl
        (fun conn address => conn.set address number) conn.getIdent = base
      induction (first :: rest) generalizing base with
      | nil => rfl
      | cons head tail ih =>
        rw [foldl_cons, foldl_cons, ← ih]
        unfold noteRequest
        rw [sends, if_pos rfl]
    have noted := foldl_set_chan
      (fun chan => { chan with request := some request }) (fun _ => rfl)
      (first :: rest) ((first :: rest).foldl
        (fun conn address => conn.set address number) conn.getIdent)
    have notedRest := foldl_set_rest
      (fun chan => { chan with request := some request }) (first :: rest)
      ((first :: rest).foldl
        (fun conn address => conn.set address number) conn.getIdent)
    rw [notes]
    refine ⟨?_, notedRest.1.trans numberedRest.1,
      notedRest.2.1.trans numberedRest.2.1,
      notedRest.2.2.trans numberedRest.2.2, ?_, ?_, ?_⟩
    · intro other outside
      have notFirst : other ≠ first := fun equal => outside (equal ▸ mem_cons_self)
      rw [set_chan_ne _ _ _ notFirst, noted, if_neg outside, numbered,
        if_neg outside, getIdent_chan]
    · intro member inGroup
      by_cases isFirst : member = first
      · subst isFirst
        rw [set_chan_self, noted, if_pos inGroup, numbered, if_pos inGroup]
        exact ident _
      · rw [set_chan_ne _ _ _ isFirst, noted, if_pos inGroup, numbered,
          if_pos inGroup]
        exact ident _
    · intro _ member inGroup
      by_cases isFirst : member = first
      · subst isFirst
        rw [set_chan_self, noted, if_pos inGroup]
        exact some_ne_none _
      · rw [set_chan_ne _ _ _ isFirst, noted, if_pos inGroup]
        exact some_ne_none _
    · intro unsent
      rw [sends] at unsent
      exact nomatch unsent

theorem Requests.timed {group : List Nat}
    (requests : conn.Requests env group changed) (timed : conn.Timed)
    (fresh : conn.Fresh group) (dynamic : ∀ member ∈ group, member ∉ fixedCids)
    (calm : env.send conn.nextIdent = true ∨
      (∀ member ∈ group, (conn.chan member).rtx = false) ∨
      ∀ member ∈ group, member ∉ conn.channels) : changed.Timed := by
  apply timed.group fresh dynamic requests.others
  · rw [requests.channels]
    exact timed.nodup
  · intro other listed
    rw [requests.channels] at listed
    exact .inr listed
  · rw [requests.halted]
    exact id
  · exact requests.ident
  · intro member inGroup running
    cases sends : env.send conn.nextIdent with
    | true =>
      exact ⟨requests.sent sends member inGroup,
        fun mate mateIn _ => requests.sent sends mate mateIn⟩
    | false =>
      obtain ⟨sameRtx, sameRequest⟩ := requests.unsent sends member inGroup
      rw [sameRtx] at running
      rw [sameRequest]
      refine ⟨timed.waiting member running, ?_⟩
      intro mate mateIn listed
      rw [requests.channels] at listed
      rcases calm with sent | still | unlisted
      · rw [sends] at sent
        exact nomatch sent
      · rw [still member inGroup] at running
        exact nomatch running
      · exact absurd listed (unlisted mate mateIn)

theorem Requests.freshFor {group : List Nat}
    (requests : conn.Requests env group changed) (fresh : conn.FreshFor (count + 1)) :
    changed.FreshFor count := by
  have next : ∀ index, changed.drawn index = conn.drawn (index + 1) := by
    intro index
    rw [← drawn_getIdent]
    unfold drawn nextIdent getIdent
    rw [requests.counter]
  refine ⟨by have := fresh.few; omega, ?_⟩
  intro other carries index below
  rw [next]
  by_cases inGroup : other ∈ group
  · have few := fresh.few
    rw [requests.ident other inGroup, ← drawn_zero]
    unfold drawn
    omega
  · rw [requests.others other inGroup, requests.channels] at carries
    rw [requests.others other inGroup]
    exact fresh.unused other carries (index + 1) (by omega)

theorem ecredConnReqSend_requests (conn : L2capConn)
    (available : env.alloc conn.nextIdent = true) (first : Nat) (rest : List Nat) :
    conn.Requests env (first :: rest)
      (conn.ecredConnReqSend env (first :: rest)) := by
  have grouped : conn.ecredConnReqSend env (first :: rest) =
      conn.requestGroup env .ecredConn
        (fun chan => { chan with ident := conn.nextIdent }) first rest := by
    unfold ecredConnReqSend requestGroup setIdent
    simp only [available, if_true]
  rw [grouped]
  exact conn.requestGroup_requests env .ecredConn
    (fun chan => { chan with ident := conn.nextIdent }) (fun _ => rfl)
    (fun _ => rfl) (fun _ => ⟨rfl, rfl⟩) first rest

theorem ecredConnReqSend_halts (conn : L2capConn)
    (unavailable : ¬env.alloc conn.nextIdent = true) (first : Nat) (rest : List Nat) :
    conn.ecredConnReqSend env (first :: rest) =
      { conn.getIdent with halted := true } := by
  unfold ecredConnReqSend
  simp only [unavailable]
  rfl

theorem Timed.ecredConnReqSend (timed : conn.Timed)
    (env : L2capEnv) {group : List Nat} (fresh : conn.Fresh group)
    (dynamic : ∀ member ∈ group, member ∉ fixedCids)
    (calm : env.send conn.nextIdent = true ∨
      (∀ member ∈ group, (conn.chan member).rtx = false) ∨
      ∀ member ∈ group, member ∉ conn.channels) :
    (conn.ecredConnReqSend env group).Timed := by
  cases group with
  | nil => exact timed
  | cons first rest =>
    by_cases available : env.alloc conn.nextIdent = true
    · exact (conn.ecredConnReqSend_requests available first rest).timed timed
        fresh dynamic calm
    · rw [conn.ecredConnReqSend_halts available]
      exact timed.getIdent.halt

theorem Timed.renumberHalted (timed : conn.Timed) {group : List Nat} {mtu : Nat}
    (dynamic : ∀ member ∈ group, member ∉ fixedCids) :
    Timed { group.foldl (fun later address => later.set address
      (pendReconf conn.nextIdent mtu)) conn.getIdent with halted := true } := by
  have bounds := conn.nextIdent_bounds
  have numbered := foldl_set_chan (pendReconf conn.nextIdent mtu)
    (fun _ => rfl) group conn.getIdent
  have rest := foldl_set_rest (pendReconf conn.nextIdent mtu) group conn.getIdent
  refine ⟨?_, ?_, ?_, ?_, nofun⟩
  · rw [rest.1]
    exact timed.nodup
  · intro address running
    rw [numbered] at running ⊢
    by_cases inGroup : address ∈ group
    · rw [if_pos inGroup] at running ⊢
      exact timed.waiting address running
    · rw [if_neg inGroup] at running ⊢
      exact timed.waiting address running
  · intro address running
    rw [numbered] at running ⊢
    split
    · exact Nat.ne_of_gt bounds.1
    rename_i outside
    rw [if_neg outside] at running
    exact timed.numbered address running
  · intro address fixed
    rw [numbered, if_neg fun inGroup => dynamic address inGroup fixed]
    exact timed.fixed address fixed

theorem Timed.ecredChanReconfigure (timed : conn.Timed)
    (env : L2capEnv) {chans : List Nat} {mtu : Nat}
    (dynamic : ∀ member ∈ chans, member ∉ fixedCids)
    (fresh : conn.Fresh (chans.take ecredChanMax))
    (calm : env.send conn.nextIdent = true ∨
      ∀ member ∈ chans.take ecredChanMax, (conn.chan member).rtx = false) :
    (conn.ecredChanReconfigure env chans mtu).Timed := by
  unfold L2capConn.ecredChanReconfigure
  split
  · exact timed
  rename_i first rest short
  rw [short] at fresh calm
  have shortDynamic : ∀ member ∈ first :: rest, member ∉ fixedCids := by
    intro member inGroup
    rw [← short] at inGroup
    exact dynamic member (mem_of_mem_take inGroup)
  split
  · exact timed
  split
  · exact timed
  simp only
  split
  · split
    · have requests := conn.requestGroup_requests env .reconf
        (pendReconf conn.nextIdent mtu) (fun _ => rfl)
        (fun _ => rfl) (fun _ => ⟨rfl, rfl⟩) first rest
      exact requests.timed timed fresh shortDynamic (calm.imp_right .inl)
    · exact timed.renumberHalted shortDynamic
  · exact timed.getIdent

end L2capConn

end ZephyrBluetooth.Host
