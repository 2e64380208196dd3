import ZephyrBluetooth.Host.Rfcomm

namespace ZephyrBluetooth.Host

open Data List Function

variable {state : RfcommState} {dlci : Nat}

variable {sessions dlcs : Nat} {cfg : RfcommConfig}

variable {s : Fin sessions} {d : Fin dlcs} {accept : RfcommAccept dlcs}

inductive RfcommLife where
  | unused
  | opening
  | opened

def RfcommLife.next : RfcommLife → RfcommCall → Option RfcommLife
  | .unused, .taken => some .opening
  | .opening, .returned => some .unused
  | .opening, .connected => some .opened
  | .opening, .disconnected => some .unused
  | .opened, .disconnected => some .unused
  | _, _ => none

/-- A DLC that was handed over is given back or called back `disconnected` once,
and `connected` at most once before. -/
def RfcommLife.ofCalls (calls : List RfcommCall) : Option RfcommLife :=
  calls.foldlM RfcommLife.next .unused

theorem RfcommLife.ofCalls_append (calls : List RfcommCall) (call : RfcommCall) :
    ofCalls (calls ++ [call]) = (ofCalls calls).bind (·.next call) := by
  unfold ofCalls
  rw [foldlM_append]
  cases calls.foldlM RfcommLife.next .unused with
  | none => rfl
  | some life => cases named : life.next call <;> simp [named]

def RfcommState.Opening (state : RfcommState) : Prop :=
  state = .init ∨ state = .securityPending ∨ state = .connecting ∨ state = .config

def RfcommState.Running (state : RfcommState) : Prop :=
  state = .connected ∨ state = .userDisconnect ∨ state = .disconnected

def RfcommState.Listed (state : RfcommState) : Prop :=
  state ≠ .idle ∧ state ≠ .disconnected

instance (state : RfcommState) : Decidable state.Opening :=
  inferInstanceAs (Decidable (_ ∨ _ ∨ _ ∨ _))

instance (state : RfcommState) : Decidable state.Running :=
  inferInstanceAs (Decidable (_ ∨ _ ∨ _))

instance (state : RfcommState) : Decidable state.Listed :=
  inferInstanceAs (Decidable (_ ∧ _))

theorem RfcommState.Opening.listed (opening : state.Opening) : state.Listed := by
  rcases opening with rfl | rfl | rfl | rfl <;> decide

theorem RfcommState.listed_disconnecting : RfcommState.Listed .disconnecting := by
  decide

def RfcommTxAt.Working : RfcommTxAt → Prop
  | .exit => False
  | .loop noWait | .wait noWait | .credits noWait _ | .fc noWait _ |
    .send noWait _ => noWait = false

structure RfcommDlc.Sound (dlc : RfcommDlc sessions) : Prop where
  unused : dlc.session = none ↔ dlc.state = .idle
  quiet : dlc.state = .idle ∨ dlc.state.Opening → dlc.threads = []
  one : dlc.threads.length ≤ 1
  running : dlc.state.Running → dlc.threads ≠ []
  working : dlc.state = .connected →
    (∀ now ∈ dlc.threads, now.Working) ∧ none ∉ dlc.txQueue
  idle : dlc.state = .idle → RfcommLife.ofCalls dlc.calls = some .unused
  opening : dlc.state.Opening → RfcommLife.ofCalls dlc.calls = some .opening
  opened : dlc.state ≠ .idle → dlc.threads ≠ [] →
    RfcommLife.ofCalls dlc.calls = some .opened
  closing : dlc.state = .disconnecting →
    RfcommLife.ofCalls dlc.calls = some .opening ∨
      RfcommLife.ofCalls dlc.calls = some .opened

namespace RfcommDlc.Sound

variable {dlc after : RfcommDlc sessions}

section

variable (sound : dlc.Sound)
include sound

theorem thread (session : after.session = dlc.session)
    (state : after.state = dlc.state)
    (threads : after.threads.length = dlc.threads.length)
    (calls : after.calls = dlc.calls)
    (working : dlc.state = .connected →
      (∀ now ∈ after.threads, now.Working) ∧ none ∉ after.txQueue) :
    after.Sound := by
  have nonempty : after.threads = [] ↔ dlc.threads = [] := by
    rw [← length_eq_zero_iff, ← length_eq_zero_iff, threads]
  refine ⟨?_, ?_, ?_, ?_, ?_, ?_, ?_, ?_, ?_⟩
  · rw [session, state]
    exact sound.unused
  · rw [state, nonempty]
    exact sound.quiet
  · rw [threads]
    exact sound.one
  · rw [state, ne_eq, nonempty]
    exact sound.running
  · rw [state]
    exact working
  · rw [state, calls]
    exact sound.idle
  · rw [state, calls]
    exact sound.opening
  · rw [state, ne_eq after.threads, nonempty, calls]
    exact sound.opened
  · rw [state, calls]
    exact sound.closing

theorem congr (session : after.session = dlc.session)
    (state : after.state = dlc.state) (threads : after.threads = dlc.threads)
    (calls : after.calls = dlc.calls)
    (queue : dlc.state = .connected → none ∉ after.txQueue) : after.Sound := by
  refine sound.thread session state (by rw [threads]) calls fun connected => ?_
  rw [threads]
  exact ⟨(sound.working connected).1, queue connected⟩

theorem session_ne_none (used : dlc.state ≠ .idle) : dlc.session ≠ none :=
  fun none => used (sound.unused.mp none)

theorem withState (before : dlc.state.Opening) (opening : state.Opening) :
    (dlc.withState state).Sound := by
  have used : dlc.session ≠ none := sound.session_ne_none before.listed.1
  refine ⟨⟨fun none => absurd none used, fun idle => absurd idle
    opening.listed.1⟩, fun _ => sound.quiet (.inr before),
    sound.one, ?_, ?_, fun idle => absurd idle opening.listed.1,
    fun _ => sound.opening before, ?_, ?_⟩
  · intro running
    rcases opening with rfl | rfl | rfl | rfl <;>
      rcases running with h | h | h <;> cases h
  · intro connected
    subst connected
    rcases opening with h | h | h | h <;> cases h
  · intro _ some
    exact absurd (sound.quiet (.inr before)) some
  · intro closing
    exact .inl (sound.opening before)

theorem destroyed (none : dlc.threads = []) (used : dlc.state ≠ .idle) :
    (dlc.cancelRtx.withoutSession.called .disconnected).Sound := by
  have life : RfcommLife.ofCalls dlc.calls = some .opening ∨
      RfcommLife.ofCalls dlc.calls = some .opened := by
    have still : ¬dlc.state.Running := fun running => sound.running running none
    cases state : dlc.state with
    | idle => exact absurd state used
    | init => exact .inl (sound.opening (by rw [state]; exact .inl rfl))
    | securityPending =>
      exact .inl (sound.opening (by rw [state]; exact .inr (.inl rfl)))
    | connecting =>
      exact .inl (sound.opening (by rw [state]; exact .inr (.inr (.inl rfl))))
    | config =>
      exact .inl (sound.opening (by rw [state]; exact .inr (.inr (.inr rfl))))
    | disconnecting => exact sound.closing state
    | connected => exact absurd (by rw [state]; decide) still
    | userDisconnect => exact absurd (by rw [state]; decide) still
    | disconnected => exact absurd (by rw [state]; decide) still
  have ended : RfcommLife.ofCalls (dlc.calls ++ [.disconnected]) =
      some .unused := by
    rw [RfcommLife.ofCalls_append]
    rcases life with life | life <;> rw [life] <;> rfl
  exact ⟨⟨fun _ => rfl, fun _ => rfl⟩, fun _ => none, sound.one,
    fun running => absurd running (by change ¬RfcommState.Running .idle; decide),
    nofun, fun _ => ended,
    fun opening => absurd opening (by change ¬RfcommState.Opening .idle; decide),
    fun used => absurd rfl used, nofun⟩

theorem ended (gone : dlc.state = .disconnected) :
    (((dlc.withTxQueue []).withThreads []).cancelRtx.withoutSession.called
      .disconnected).Sound := by
  have opened := sound.opened (by rw [gone]; decide)
    (sound.running (by rw [gone]; decide))
  have ended : RfcommLife.ofCalls (dlc.calls ++ [.disconnected]) =
      some .unused := by
    rw [RfcommLife.ofCalls_append, opened]
    rfl
  exact ⟨⟨fun _ => rfl, fun _ => rfl⟩, fun _ => rfl, Nat.zero_le _,
    fun running => absurd running (by change ¬RfcommState.Running .idle; decide),
    nofun, fun _ => ended,
    fun opening => absurd opening (by change ¬RfcommState.Opening .idle; decide),
    fun used => absurd rfl used, nofun⟩

theorem stopped (connected : dlc.state = .connected)
    (next : state = .disconnected ∨ state = .disconnecting ∨ state = .userDisconnect)
    (session : after.session = dlc.session) (entered : after.state = state)
    (threads : after.threads = dlc.threads) (calls : after.calls = dlc.calls) :
    after.Sound := by
  have used : dlc.session ≠ none :=
    sound.session_ne_none (by rw [connected]; decide)
  have thread := sound.running (by rw [connected]; decide)
  have opened := sound.opened (by rw [connected]; decide) thread
  have busy : state ≠ .idle ∧ ¬state.Opening ∧ state ≠ .connected := by
    rcases next with rfl | rfl | rfl <;> decide
  refine ⟨?_, ?_, ?_, ?_, ?_, ?_, ?_, ?_, ?_⟩
  · rw [session, entered]
    exact ⟨fun none => absurd none used, fun idle => absurd idle busy.1⟩
  · rw [entered]
    rintro (idle | opening)
    · exact absurd idle busy.1
    · exact absurd opening busy.2.1
  · rw [threads]
    exact sound.one
  · rw [threads]
    exact fun _ => thread
  · rw [entered]
    exact fun connected => absurd connected busy.2.2
  · rw [entered]
    exact fun idle => absurd idle busy.1
  · rw [entered]
    exact fun opening => absurd opening busy.2.1
  · rw [calls]
    exact fun _ _ => opened
  · rw [calls]
    exact fun _ => .inr opened

theorem disconnecting (used : dlc.state ≠ .idle)
    (life : RfcommLife.ofCalls dlc.calls = some .opening ∨
      RfcommLife.ofCalls dlc.calls = some .opened)
    (session : after.session = dlc.session) (entered : after.state = .disconnecting)
    (threads : after.threads = []) (calls : after.calls = dlc.calls) :
    after.Sound := by
  have owned := sound.session_ne_none used
  refine ⟨?_, ?_, ?_, ?_, ?_, ?_, ?_, ?_, ?_⟩
  · rw [session, entered]
    exact ⟨fun none => absurd none owned, nofun⟩
  · exact fun _ => threads
  · rw [threads]
    exact Nat.zero_le _
  · rw [entered]
    exact fun running => absurd running (by decide)
  · rw [entered]
    exact nofun
  · rw [entered]
    exact nofun
  · rw [entered]
    exact fun opening => absurd opening (by decide)
  · exact fun _ some => absurd threads some
  · rw [calls]
    exact fun _ => life

theorem left (thread : dlc.threads ≠ []) (used : dlc.state ≠ .idle)
    (session : after.session = dlc.session) (entered : after.state = .disconnecting)
    (threads : after.threads = []) (calls : after.calls = dlc.calls) :
    after.Sound :=
  sound.disconnecting used (.inr (sound.opened used thread)) session entered
    threads calls

theorem closed (opening : dlc.state.Opening) (session : after.session = dlc.session)
    (entered : after.state = .disconnecting) (threads : after.threads = dlc.threads)
    (calls : after.calls = dlc.calls) : after.Sound :=
  sound.disconnecting opening.listed.1 (.inl (sound.opening opening)) session entered
    (threads.trans (sound.quiet (.inr opening))) calls

theorem entered (opening : dlc.state.Opening)
    (session : after.session = dlc.session) (entered : after.state = .connected)
    (threads : after.threads = dlc.threads ++ [.loop false])
    (calls : after.calls = dlc.calls ++ [.connected])
    (queue : after.txQueue = []) : after.Sound := by
  have used : dlc.session ≠ none := sound.session_ne_none opening.listed.1
  have alone : after.threads = [.loop false] := by
    rw [threads, sound.quiet (.inr opening)]
    rfl
  have opened : RfcommLife.ofCalls after.calls = some .opened := by
    rw [calls, RfcommLife.ofCalls_append, sound.opening opening]
    rfl
  refine ⟨?_, ?_, ?_, ?_, ?_, ?_, ?_, fun _ _ => opened, ?_⟩
  · rw [session, entered]
    exact ⟨fun none => absurd none used, nofun⟩
  · rw [entered]
    exact fun quiet => absurd quiet (by decide)
  · rw [alone]
    exact Nat.le_refl 1
  · rw [alone]
    exact fun _ => nofun
  · rw [alone, queue]
    intro _
    refine ⟨?_, not_mem_nil⟩
    intro now member
    rw [mem_singleton.mp member]
    exact rfl
  · rw [entered]
    exact nofun
  · rw [entered]
    exact fun opening => absurd opening (by decide)
  · rw [entered]
    exact nofun

theorem taken (idle : dlc.state = .idle) {s : Fin sessions}
    (session : after.session = some s) (entered : after.state = .init)
    (threads : after.threads = dlc.threads)
    (calls : after.calls = dlc.calls ++ [.taken]) : after.Sound := by
  have none := sound.quiet (.inl idle)
  have opening : RfcommLife.ofCalls after.calls = some .opening := by
    rw [calls, RfcommLife.ofCalls_append, sound.idle idle]
    rfl
  refine ⟨?_, ?_, ?_, ?_, ?_, ?_, fun _ => opening, ?_, ?_⟩
  · rw [session, entered]
    exact ⟨nofun, nofun⟩
  · rw [threads]
    exact fun _ => none
  · rw [threads]
    exact sound.one
  · rw [entered]
    exact fun running => absurd running (by decide)
  · rw [entered]
    exact nofun
  · rw [entered]
    exact nofun
  · rw [threads]
    exact fun _ some => absurd none some
  · rw [entered]
    exact nofun

theorem refused (idle : dlc.state = .idle) {call : RfcommCall}
    (back : RfcommLife.next .opening call = some .unused)
    (session : after.session = none) (entered : after.state = .idle)
    (threads : after.threads = dlc.threads)
    (calls : after.calls = dlc.calls ++ [.taken] ++ [call]) : after.Sound := by
  have none := sound.quiet (.inl idle)
  have unused : RfcommLife.ofCalls after.calls = some .unused := by
    rw [calls, RfcommLife.ofCalls_append, RfcommLife.ofCalls_append, sound.idle idle]
    exact back
  refine ⟨?_, ?_, ?_, ?_, ?_, fun _ => unused, ?_, ?_, ?_⟩
  · rw [session, entered]
    exact ⟨fun _ => rfl, fun _ => rfl⟩
  · rw [threads]
    exact fun _ => none
  · rw [threads]
    exact sound.one
  · rw [entered]
    exact fun running => absurd running (by decide)
  · rw [entered]
    exact nofun
  · rw [entered]
    exact fun opening => absurd opening (by decide)
  · rw [entered]
    exact fun used => absurd rfl used
  · rw [entered]
    exact nofun

end

end RfcommDlc.Sound

variable {dlc : RfcommDlc sessions}

namespace RfcommHost

variable {host after : RfcommHost sessions dlcs}

@[simp] theorem send_session (s : Fin sessions) (frame : RfcommFrame) :
    (host.send s frame).session = host.session := by
  unfold send
  split <;> rfl

@[simp] theorem send_dlc (s : Fin sessions) (frame : RfcommFrame) :
    (host.send s frame).dlc = host.dlc := by
  unfold send
  split <;> rfl

@[simp] theorem send_world (s : Fin sessions) (frame : RfcommFrame) :
    (host.send s frame).world = host.world := by
  unfold send
  split <;> rfl

@[simp] theorem setDlc_session (d : Fin dlcs) (dlc : RfcommDlc sessions) :
    (host.setDlc d dlc).session = host.session := rfl

@[simp] theorem setDlc_world (d : Fin dlcs) (dlc : RfcommDlc sessions) :
    (host.setDlc d dlc).world = host.world := rfl

@[simp] theorem setSession_dlc (s : Fin sessions)
    (session : RfcommSession dlcs) :
    (host.setSession s session).dlc = host.dlc := rfl

theorem setSession_here (s : Fin sessions) (session : RfcommSession dlcs) :
    (host.setSession s session).session s = session :=
  update_self ..

theorem setSession_of_ne {other : Fin sessions} {session : RfcommSession dlcs}
    (apart : other ≠ s) :
    (host.setSession s session).session other = host.session other :=
  update_of_ne apart ..

theorem setDlc_here (d : Fin dlcs) (dlc : RfcommDlc sessions) :
    (host.setDlc d dlc).dlc d = dlc :=
  update_self ..

theorem setDlc_of_ne {other : Fin dlcs}
    (apart : other ≠ d) : (host.setDlc d dlc).dlc other = host.dlc other :=
  update_of_ne apart ..

theorem onSession_some {act : Fin sessions → RfcommHost sessions dlcs}
    (own : (host.dlc d).session = some s) : host.onSession d act = act s := by
  unfold onSession
  rw [own]

end RfcommHost

def RfcommSession.Over (session : RfcommSession dlcs) : Prop :=
  session.state = .idle ∨ session.state = .disconnected ∨ session.conn = false

instance (session : RfcommSession dlcs) : Decidable session.Over :=
  inferInstanceAs (Decidable (_ ∨ _ ∨ _))

namespace RfcommHost

variable {host after : RfcommHost sessions dlcs}

structure Lifecycle (host : RfcommHost sessions dlcs) : Prop where
  sound : ∀ d, (host.dlc d).Sound
  listed : ∀ s d, d ∈ (host.session s).dlcs ↔
    (host.dlc d).session = some s ∧ (host.dlc d).state.Listed
  nodup : ∀ s, (host.session s).dlcs.Nodup
  apart : ∀ s d other, d ∈ (host.session s).dlcs →
    other ∈ (host.session s).dlcs → (host.dlc d).dlci = (host.dlc other).dlci →
      d = other
  closed : ∀ s, (host.session s).Over → (host.session s).dlcs = []
  world : host.world = ⟨false, true⟩

section

variable (kept : host.Lifecycle)
include kept

theorem Lifecycle.dummy : host.world.dummy = true := by
  rw [kept.world]

theorem Lifecycle.send (s : Fin sessions)
    (frame : RfcommFrame) : (host.send s frame).Lifecycle := by
  refine ⟨?_, ?_, ?_, ?_, ?_, ?_⟩
  · rw [send_dlc]
    exact kept.sound
  · rw [send_dlc, send_session]
    exact kept.listed
  · rw [send_session]
    exact kept.nodup
  · rw [send_dlc, send_session]
    exact kept.apart
  · rw [send_session]
    exact kept.closed
  · rw [send_world]
    exact kept.world

theorem Lifecycle.setSession {session : RfcommSession dlcs}
    (list : session.dlcs = (host.session s).dlcs)
    (closed : session.Over → session.dlcs = []) :
    (host.setSession s session).Lifecycle := by
  have lists : ∀ other, ((host.setSession s session).session other).dlcs =
      (host.session other).dlcs := by
    intro other
    by_cases here : other = s
    · rw [here, setSession_here, list]
    · rw [setSession_of_ne here]
  refine ⟨kept.sound, ?_, ?_, ?_, ?_, kept.world⟩
  · intro other d
    rw [lists]
    exact kept.listed other d
  · intro other
    rw [lists]
    exact kept.nodup other
  · intro other
    rw [lists]
    exact kept.apart other
  · intro other
    by_cases here : other = s
    · rw [here, setSession_here]
      exact closed
    · rw [setSession_of_ne here]
      exact kept.closed other

theorem Lifecycle.setDlc
    (sound : dlc.Sound) (session : dlc.session = (host.dlc d).session)
    (listed : dlc.state.Listed ↔ (host.dlc d).state.Listed)
    (dlci : dlc.dlci = (host.dlc d).dlci) : (host.setDlc d dlc).Lifecycle := by
  have names : ∀ other, ((host.setDlc d dlc).dlc other).dlci =
      (host.dlc other).dlci := by
    intro other
    by_cases here : other = d
    · rw [here, setDlc_here, dlci]
    · rw [setDlc_of_ne here]
  refine ⟨?_, ?_, kept.nodup, ?_, kept.closed, kept.world⟩
  · intro other
    by_cases here : other = d
    · rw [here, setDlc_here]
      exact sound
    · rw [setDlc_of_ne here]
      exact kept.sound other
  · intro s other
    by_cases here : other = d
    · rw [here, setDlc_here, session, listed]
      exact kept.listed s d
    · rw [setDlc_of_ne here]
      exact kept.listed s other
  · intro s first second one two
    rw [names, names]
    exact kept.apart s first second one two

theorem Lifecycle.unlist
    (sound : dlc.Sound) (own : (host.dlc d).session = some s)
    (left : ¬dlc.state.Listed) : ((host.setSession s ((host.session s).withDlcs
      ((host.session s).dlcs.erase d))).setDlc d dlc).Lifecycle := by
  have lists : ∀ other e, e ∈ ((host.setSession s ((host.session s).withDlcs
      ((host.session s).dlcs.erase d))).session other).dlcs ↔
        e ∈ (host.session other).dlcs ∧ e ≠ d := by
    intro other e
    by_cases here : other = s
    · rw [here, setSession_here]
      change e ∈ (host.session s).dlcs.erase d ↔ _
      rw [(kept.nodup s).mem_erase_iff]
      exact and_comm
    · rw [setSession_of_ne here]
      refine ⟨fun member => ⟨member, ?_⟩, fun both => both.1⟩
      rintro rfl
      have mine := ((kept.listed other e).mp member).1
      rw [own] at mine
      exact here (Option.some.inj mine).symm
  refine ⟨?_, ?_, ?_, ?_, ?_, kept.world⟩
  · intro other
    by_cases here : other = d
    · rw [here, setDlc_here]
      exact sound
    · rw [setDlc_of_ne here]
      exact kept.sound other
  · intro other e
    refine (lists other e).trans ?_
    by_cases here : e = d
    · rw [here, setDlc_here]
      exact ⟨fun both => absurd rfl both.2, fun both => absurd both.2 left⟩
    rw [setDlc_of_ne here]
    exact ⟨fun both => (kept.listed other e).mp both.1,
      fun both => ⟨(kept.listed other e).mpr both, here⟩⟩
  · intro other
    by_cases here : other = s
    · rw [here]
      change ((host.setSession s _).session s).dlcs.Nodup
      rw [setSession_here]
      exact (kept.nodup s).erase d
    · change ((host.setSession s _).session other).dlcs.Nodup
      rw [setSession_of_ne here]
      exact kept.nodup other
  · intro other first second one two same
    obtain ⟨one, first_ne⟩ := (lists other first).mp one
    obtain ⟨two, second_ne⟩ := (lists other second).mp two
    rw [setDlc_of_ne first_ne, setDlc_of_ne second_ne] at same
    exact kept.apart other first second one two same
  · intro other
    by_cases here : other = s
    · rw [here]
      change ((host.setSession s _).session s).Over →
        ((host.setSession s _).session s).dlcs = []
      rw [setSession_here]
      intro closed
      have none := kept.closed s closed
      rw [none]
      rfl
    · change ((host.setSession s _).session other).Over →
        ((host.setSession s _).session other).dlcs = []
      rw [setSession_of_ne here]
      exact kept.closed other

end

theorem lookupDlci_some (found : host.lookupDlci s dlci = some d) :
    d ∈ (host.session s).dlcs ∧ (host.dlc d).dlci = dlci := by
  refine ⟨mem_of_find?_eq_some found, ?_⟩
  have same := find?_some found
  exact of_decide_eq_true same

theorem lookupDlci_none (none : host.lookupDlci s dlci = none) :
    ∀ d ∈ (host.session s).dlcs, (host.dlc d).dlci ≠ dlci := by
  intro d member same
  have absent := find?_eq_none.mp none d member
  exact absent (decide_eq_true same)

theorem Lifecycle.own (kept : host.Lifecycle) {s : Fin sessions} {d : Fin dlcs}
    (member : d ∈ (host.session s).dlcs) : (host.dlc d).session = some s :=
  ((kept.listed s d).mp member).1

theorem eraseP_of_eq {Item : Type} [DecidableEq Item] {list : List Item}
    {here : Item} {test : Item → Bool}
    (only : ∀ item ∈ list, test item = true ↔ item = here) :
    list.eraseP test = list.erase here := by
  induction list with
  | nil => rfl
  | cons first rest ih =>
    have front := only first mem_cons_self
    by_cases same : first = here
    · rw [eraseP_cons_of_pos (front.mpr same), same, erase_cons_head]
    rw [eraseP_cons_of_neg (fun found => same (front.mp found)),
      erase_cons_tail (by simpa using same),
      ih fun item member => only item (mem_cons_of_mem _ member)]

theorem Lifecycle.removeDlci_eq (kept : host.Lifecycle)
    (member : d ∈ (host.session s).dlcs) : host.removeDlci s (host.dlc d).dlci =
      host.setSession s ((host.session s).withDlcs
        ((host.session s).dlcs.erase d)) := by
  unfold removeDlci
  cases list : (host.session s).dlcs with
  | nil => rw [list] at member; cases member
  | cons first rest =>
    have front : first ∈ (host.session s).dlcs := by
      rw [list]
      exact mem_cons_self
    simp only
    split
    · rename_i same
      have here : first = d := kept.apart s first d front member same
      subst here
      rw [onSession_some (kept.own front), erase_cons_head]
    · rename_i other
      have apart : first ≠ d := by
        rintro rfl
        exact other rfl
      have erased : (rest.eraseP fun e =>
          decide ((host.dlc e).dlci = (host.dlc d).dlci)) = rest.erase d := by
        apply eraseP_of_eq
        intro e inside
        have listed : e ∈ (host.session s).dlcs := by
          rw [list]
          exact mem_cons_of_mem _ inside
        rw [decide_eq_true_eq]
        exact ⟨kept.apart s e d listed member, fun here => by rw [here]⟩
      rw [erased, erase_cons_tail (by simpa using apart)]

theorem Lifecycle.of_eq (kept : host.Lifecycle)
    (session : after.session = host.session) (dlc : after.dlc = host.dlc)
    (world : after.world = host.world) : after.Lifecycle := by
  refine ⟨?_, ?_, ?_, ?_, ?_, ?_⟩
  · rw [dlc]
    exact kept.sound
  · rw [session, dlc]
    exact kept.listed
  · rw [session]
    exact kept.nodup
  · rw [session, dlc]
    exact kept.apart
  · rw [session]
    exact kept.closed
  · rw [world]
    exact kept.world

theorem setDlc_setDlc (d : Fin dlcs) (first second : RfcommDlc sessions) :
    (host.setDlc d first).setDlc d second = host.setDlc d second := by
  unfold setDlc
  rw [update_idem]

theorem setSession_setSession (s : Fin sessions)
    (first second : RfcommSession dlcs) :
    (host.setSession s first).setSession s second = host.setSession s second := by
  unfold setSession
  rw [update_idem]

theorem setSession_self (s : Fin sessions) :
    host.setSession s (host.session s) = host := by
  unfold setSession
  rw [update_eq_self]

def Lingers (host : RfcommHost sessions dlcs) (d : Fin dlcs) : Prop :=
  (host.dlc d).threads ≠ [] ∧ (host.dlc d).state ≠ .connected

instance (d : Fin dlcs) : Decidable (host.Lingers d) :=
  inferInstanceAs (Decidable (_ ∧ _))

theorem dlcDisconnect_effect (host : RfcommHost sessions dlcs)
    (sound : (host.dlc d).Sound) (own : (host.dlc d).session = some s)
    (listed : (host.dlc d).state.Listed) (calm : ¬host.Lingers d)
    (dummy : host.world.dummy = true) :
    ∃ dlc fc, dlc.Sound ∧ ¬dlc.state.Listed ∧
      ((host.dlc d).state = .connected → dlc.session = some s) ∧
      host.dlcDisconnect d =
        (host.setDlc d dlc).setSession s ((host.session s).withFc fc) := by
  by_cases connected : (host.dlc d).state = .connected
  · refine ⟨(((host.dlc d).withState .disconnected).withTxQueue
      ((host.dlc d).txQueue ++ [none])).giveCredits 1, true,
      sound.stopped connected (.inl rfl) rfl rfl rfl rfl,
      fun still => still.2 rfl, fun _ => own, ?_⟩
    unfold dlcDisconnect
    simp only [connected, dummy, if_true]
    refine onSession_some ?_
    rw [setDlc_here]
    exact own
  · have none : (host.dlc d).threads = [] := by
      by_contra some
      exact calm ⟨some, connected⟩
    refine ⟨(host.dlc d).cancelRtx.withoutSession.called .disconnected,
      (host.session s).fc, sound.destroyed none listed.1,
      fun still => still.1 rfl, fun here => absurd here connected, ?_⟩
    have quiet : ((host.setDlc d ((host.dlc d).withState
        .disconnected)).dlcDestroy d) = (host.setDlc d
          ((host.dlc d).cancelRtx.withoutSession.called .disconnected)).setSession s
              ((host.session s).withFc (host.session s).fc) := by
      unfold dlcDestroy
      rw [setDlc_here, setDlc_setDlc]
      exact (setSession_self s).symm
    unfold dlcDisconnect
    cases state : (host.dlc d).state with
    | disconnected => exact absurd state listed.2
    | connected => exact absurd state connected
    | _ => simpa only [state] using quiet

theorem Lifecycle.leave (kept : host.Lifecycle) (between : RfcommHost sessions dlcs)
    {d : Fin dlcs} (member : d ∈ (host.session s).dlcs) (calm : ¬host.Lingers d)
    (session : between.session = (host.removeDlci s (host.dlc d).dlci).session)
    (dlcs : between.dlc = (host.removeDlci s (host.dlc d).dlci).dlc)
    (world : between.world = (host.removeDlci s (host.dlc d).dlci).world) :
    (between.dlcDisconnect d).Lifecycle ∧
      ((between.dlcDisconnect d).session s).dlcs = (host.session s).dlcs.erase d ∧
      ((host.dlc d).state = .connected →
        ((between.dlcDisconnect d).dlc d).session = some s) := by
  have own := (kept.listed s d).mp member
  rw [kept.removeDlci_eq member] at session dlcs world
  have same : between.dlc d = host.dlc d := by rw [dlcs]; rfl
  obtain ⟨dlc, _, sound, left, still, effect⟩ :=
    dlcDisconnect_effect between (d := d) (s := s)
      (by rw [same]; exact kept.sound d) (by rw [same]; exact own.1)
      (by rw [same]; exact own.2)
      (by unfold Lingers; rw [same]; exact calm)
      (by rw [world]; exact kept.dummy)
  have shorter : between.session s =
      (host.session s).withDlcs ((host.session s).dlcs.erase d) := by
    rw [session]
    exact setSession_here ..
  rw [effect]
  refine ⟨?_, ?_, ?_⟩
  · have gone : (between.setDlc d dlc).Lifecycle := by
      refine (kept.unlist sound own.1 left).of_eq session ?_ world
      change update between.dlc d dlc = update _ d dlc
      rw [dlcs]
    refine gone.setSession rfl ?_
    rw [shorter]
    intro closed
    rw [kept.closed s closed]
    rfl
  · rw [setSession_here, shorter]
    rfl
  · rw [setSession_dlc, setDlc_here]
    intro connected
    exact still (by rw [same]; exact connected)

theorem Lifecycle.sessionDisconnect (kept : host.Lifecycle) (s : Fin sessions) :
    (host.sessionDisconnect s).Lifecycle := by
  unfold RfcommHost.sessionDisconnect
  split
  · exact kept
  rename_i none
  have none : (host.session s).dlcs = [] := not_not.mp none
  have leaving : (host.setSession s ((host.session s).withState
      .disconnecting)).Lifecycle := kept.setSession rfl fun _ => none
  have told := leaving.send s (.disc 0)
  refine told.setSession rfl ?_
  rw [send_session, setSession_here]
  exact fun _ => none

theorem Lifecycle.disconnectFirst {rest : List (Fin dlcs)}
    (kept : (host.setSession s ((host.session s).withDlcs
      (d :: rest))).Lifecycle) (calm : ¬host.Lingers d) :
    ((host.dlcDisconnect d).setSession s (((host.dlcDisconnect d).session
      s).withDlcs rest)).Lifecycle ∧ ∀ other, other ≠ d →
          (host.dlcDisconnect d).dlc other = host.dlc other := by
  have member : d ∈ ((host.setSession s ((host.session s).withDlcs
      (d :: rest))).session s).dlcs := by
    rw [setSession_here]
    exact mem_cons_self
  have own := (kept.listed s d).mp member
  obtain ⟨dlc, fc, sound, left, _, effect⟩ := dlcDisconnect_effect host
    (kept.sound d) own.1 own.2 calm kept.dummy
  have here : (host.setSession s ((host.session s).withDlcs
      (d :: rest))).session s = (host.session s).withDlcs (d :: rest) :=
    setSession_here ..
  have unlisted := kept.unlist sound own.1 left
  rw [here, setSession_setSession] at unlisted
  change ((host.setSession s ((host.session s).withDlcs
    ((d :: rest).erase d))).setDlc d dlc).Lifecycle at unlisted
  rw [erase_cons_head] at unlisted
  have closed : ((host.session s).withDlcs rest).Over →
      ((host.session s).withDlcs rest).dlcs = [] := by
    intro ended
    have none := kept.closed s
    rw [here] at none
    cases none ended
  have given : (((host.setSession s ((host.session s).withDlcs rest)).setDlc d
      dlc).setSession s (((host.session s).withDlcs rest).withFc fc)).Lifecycle := by
    refine unlisted.setSession ?_ closed
    change _ = ((host.setSession s _).session s).dlcs
    rw [setSession_here]
    rfl
  refine ⟨given.of_eq ?_ ?_ ?_, ?_⟩
  · rw [effect, setSession_here, setSession_setSession]
    change update host.session s _ = update (update host.session s _) s _
    rw [update_idem]
    rfl
  · rw [effect]
    rfl
  · rw [effect]
    rfl
  · intro other apart
    rw [effect]
    exact setDlc_of_ne apart

theorem Lifecycle.dlcsDisconnect {list : List (Fin dlcs)} (distinct : list.Nodup)
    (kept : (host.setSession s ((host.session s).withDlcs list)).Lifecycle)
    (calm : ∀ d ∈ list, ¬host.Lingers d) :
    ((dlcsDisconnect list host).setSession s
      (((dlcsDisconnect list host).session s).withDlcs [])).Lifecycle := by
  induction list generalizing host with
  | nil => exact kept
  | cons d rest ih =>
    obtain ⟨first, others⟩ := kept.disconnectFirst (calm d mem_cons_self)
    apply ih (nodup_cons.mp distinct).2 first
    intro other member lingers
    have apart : other ≠ d := by
      rintro rfl
      exact (nodup_cons.mp distinct).1 member
    unfold Lingers at lingers
    rw [others other apart] at lingers
    exact calm other (mem_cons_of_mem _ member) lingers

section

variable (kept : host.Lifecycle)
include kept

theorem Lifecycle.sessionDisconnected
    (s : Fin sessions) (calm : ∀ d ∈ (host.session s).dlcs, ¬host.Lingers d) :
    (host.sessionDisconnected s).Lifecycle := by
  unfold RfcommHost.sessionDisconnected
  split
  · exact kept
  have whole : (host.setSession s ((host.session s).withDlcs
      (host.session s).dlcs)).Lifecycle := by
    have same : host.setSession s ((host.session s).withDlcs
        (host.session s).dlcs) = host := setSession_self s
    rw [same]
    exact kept
  have gone := Lifecycle.dlcsDisconnect (kept.nodup s) whole calm
  have empty : (((RfcommHost.dlcsDisconnect (host.session s).dlcs
      host).setSession s (((RfcommHost.dlcsDisconnect (host.session s).dlcs
        host).session s).withDlcs [])).setSession s
          ((((RfcommHost.dlcsDisconnect (host.session s).dlcs host).session
            s).withState .disconnected).withDlcs [])).Lifecycle := by
    refine gone.setSession ?_ fun _ => rfl
    rw [setSession_here]
    rfl
  rw [setSession_setSession] at empty
  exact empty

theorem Lifecycle.disconnected (s : Fin sessions)
    (calm : ∀ d ∈ (host.session s).dlcs, ¬host.Lingers d) :
    (host.disconnected s).Lifecycle := by
  have quiet : (host.setSession s (host.session s).cancelRtx).Lifecycle :=
    kept.setSession rfl (kept.closed s)
  have gone := quiet.sessionDisconnected s (by
    rw [setSession_here]
    exact calm)
  have none : (((host.setSession s
      (host.session s).cancelRtx).sessionDisconnected s).session s).dlcs = [] := by
    unfold RfcommHost.sessionDisconnected
    split
    · rename_i ended
      exact quiet.closed s (.inr (.inl ended))
    · rw [setSession_here]
      rfl
  exact gone.setSession rfl fun _ => none

theorem Lifecycle.dlcDrop (member : d ∈ (host.session s).dlcs)
    (none : (host.dlc d).threads = []) : (host.dlcDrop d).Lifecycle := by
  have own := (kept.listed s d).mp member
  unfold RfcommHost.dlcDrop
  rw [onSession_some own.1, kept.removeDlci_eq member]
  exact kept.unlist ((kept.sound d).destroyed none own.2.1) own.1
    fun still => still.1 rfl

theorem Lifecycle.quiet
    (opening : (host.dlc d).state.Opening) : (host.dlc d).threads = [] :=
  (kept.sound d).quiet (.inr opening)

theorem Lifecycle.dlcClose
    (member : d ∈ (host.session s).dlcs) : (host.dlcClose d).Lifecycle := by
  have own := (kept.listed s d).mp member
  have closing : (host.dlc d).state = .connecting ∨ (host.dlc d).state = .config →
        ((host.setDlc d ((host.dlc d).withState .disconnecting)).onSession d fun s =>
            let told := (host.setDlc d ((host.dlc d).withState
              .disconnecting)).send s (.disc (host.dlc d).dlci)
            told.setDlc d (told.dlc d).startRtx).Lifecycle := by
    intro either
    have opening : (host.dlc d).state.Opening := .inr (.inr either)
    have entered : (host.setDlc d ((host.dlc d).withState
        .disconnecting)).Lifecycle := by
      refine kept.setDlc ((kept.sound d).closed opening rfl rfl rfl rfl) rfl ?_ rfl
      exact ⟨fun _ => own.2, fun _ => RfcommState.listed_disconnecting⟩
    have here : ((host.setDlc d ((host.dlc d).withState
        .disconnecting)).dlc d).session = some s := by
      rw [setDlc_here]
      exact own.1
    rw [onSession_some here]
    have told := entered.send s (.disc (host.dlc d).dlci)
    have sound := told.sound d
    refine told.setDlc (sound.congr rfl rfl rfl rfl ?_) rfl .rfl rfl
    exact fun still => (sound.working still).2
  unfold RfcommHost.dlcClose
  cases state : (host.dlc d).state with
  | idle => simpa only [state] using kept
  | init =>
    simp only [state]
    exact kept.dlcDrop member (kept.quiet (by rw [state]; decide))
  | securityPending =>
    have quiet := kept.quiet (d := d) (by rw [state]; decide)
    simp only [state]
    split
    · rw [onSession_some own.1]
      refine (kept.send s (.dm (host.dlc d).dlci)).dlcDrop (s := s) ?_ ?_
      · rw [send_session]
        exact member
      · rw [send_dlc]
        exact quiet
    · exact kept.dlcDrop member quiet
  | connecting =>
    simp only [state]
    exact closing (.inl state)
  | config =>
    simp only [state]
    exact closing (.inr state)
  | connected =>
    simp only [state, kept.dummy, if_true]
    refine kept.setDlc ((kept.sound d).stopped state (.inr (.inl rfl)) rfl rfl
      rfl rfl) rfl ?_ rfl
    exact ⟨fun _ => own.2, fun _ => RfcommState.listed_disconnecting⟩
  | userDisconnect => simpa only [state] using kept
  | disconnecting => simpa only [state] using kept
  | disconnected => simpa only [state] using kept

end

structure Entered (before after : RfcommDlc sessions) : Prop where
  session : after.session = before.session
  state : after.state = .connected
  dlci : after.dlci = before.dlci
  threads : after.threads = before.threads ++ [.loop false]
  calls : after.calls = before.calls ++ [.connected]
  queue : after.txQueue = []

theorem settleCfc_effect (host : RfcommHost sessions dlcs) (s : Fin sessions) :
    ∃ cfc, host.settleCfc s = host.setSession s ((host.session s).withCfc cfc) := by
  unfold settleCfc
  split
  · exact ⟨.notSupported, rfl⟩
  · exact ⟨(host.session s).cfc, (setSession_self s).symm⟩

theorem startFlow_effect (host : RfcommHost sessions dlcs) (s : Fin sessions)
    (d : Fin dlcs) : ∃ credits binary, (host.startFlow s d).dlc =
        (host.setDlc d ((host.dlc d).withTxCredits credits binary)).dlc ∧
      (host.startFlow s d).session = host.session ∧
      (host.startFlow s d).world = host.world := by
  unfold startFlow
  split
  · refine ⟨0, true, ?_, ?_, ?_⟩
    · simp [setDlc]
    · simp
    · simp
  · exact ⟨(host.dlc d).txCredits, (host.dlc d).binary,
      (update_eq_self d host.dlc).symm, rfl, rfl⟩

theorem dlcConnected_effect (own : (host.dlc d).session = some s) :
    ∃ dlc cfc, Entered (host.dlc d) dlc ∧
      (host.dlcConnected d).session = (host.setSession s
        ((host.session s).withCfc cfc)).session ∧
      (host.dlcConnected d).dlc = (host.setDlc d dlc).dlc ∧
      (host.dlcConnected d).world = host.world := by
  have here : ((host.setDlc d ((host.dlc d).withState .connected)).dlc
      d).session = some s := by
    rw [setDlc_here]
    exact own
  unfold dlcConnected
  simp only [onSession_some here]
  generalize named : (host.setDlc d ((host.dlc d).withState .connected)).send s
    (.msc true (host.dlc d).dlci defaultV24Sig) = told
  have session : told.session = host.session := by rw [← named]; simp
  have dlc : told.dlc = (host.setDlc d ((host.dlc d).withState
      .connected)).dlc := by rw [← named]; simp
  have world : told.world = host.world := by rw [← named]; simp
  obtain ⟨cfc, settled⟩ := settleCfc_effect told s
  obtain ⟨credits, binary, flowDlc, flowSession, flowWorld⟩ :=
    startFlow_effect (told.settleCfc s) s d
  rw [settled, setSession_dlc, dlc, setDlc_here] at flowDlc
  rw [settled] at flowSession flowWorld
  refine ⟨(((((host.dlc d).withState .connected).withTxCredits credits
    binary).cancelRtx.withTxQueue []).withThreads
      ((host.dlc d).threads ++ [.loop false])).called .connected, cfc,
      ⟨rfl, rfl, rfl, rfl, rfl, rfl⟩, ?_, ?_, ?_⟩
  · unfold startThread
    rw [setDlc_session, settled, flowSession]
    unfold setSession
    rw [session]
  · have flowing : ((told.setSession s ((told.session s).withCfc
        cfc)).startFlow s d).dlc = update host.dlc d
          (((host.dlc d).withState .connected).withTxCredits credits binary) := by
      rw [flowDlc]
      change update told.dlc d _ = _
      rw [dlc]
      exact update_idem ..
    rw [settled]
    change update _ d _ = update _ d _
    rw [flowing, update_self, update_idem]
    rfl
  · unfold startThread
    rw [setDlc_world, settled, flowWorld]
    exact world

theorem Lifecycle.dlcConnected (kept : host.Lifecycle)
    (member : d ∈ (host.session s).dlcs) (opening : (host.dlc d).state.Opening) :
    (host.dlcConnected d).Lifecycle := by
  have own := (kept.listed s d).mp member
  obtain ⟨dlc, cfc, entered, session, changed, world⟩ := dlcConnected_effect own.1
  have agreed : (host.setSession s ((host.session s).withCfc cfc)).Lifecycle :=
    kept.setSession rfl (kept.closed s)
  have sound : dlc.Sound :=
    (kept.sound d).entered opening entered.session entered.state entered.threads
      entered.calls entered.queue
  have listed : dlc.state.Listed ↔ (host.dlc d).state.Listed := by
    rw [entered.state]
    exact ⟨fun _ => own.2, fun _ => by decide⟩
  have placed := agreed.setDlc (d := d) sound entered.session listed entered.dlci
  exact placed.of_eq session changed world

theorem sendPn_effect (cmd : Bool) (own : (host.dlc d).session = some s) :
    ∃ frame, host.sendPn d cmd = host.send s frame := by
  unfold sendPn
  rw [onSession_some own]
  simp only
  split
  · exact ⟨_, rfl⟩
  · exact ⟨_, rfl⟩

section

variable (kept : host.Lifecycle)
include kept

theorem Lifecycle.sendPn (cmd : Bool)
    (own : (host.dlc d).session = some s) : (host.sendPn d cmd).Lifecycle := by
  obtain ⟨frame, effect⟩ := sendPn_effect cmd own
  rw [effect]
  exact kept.send s frame

theorem Lifecycle.setOpening
    (before : (host.dlc d).state.Opening) (opening : state.Opening) (mtu : Nat) :
    (host.setDlc d (((host.dlc d).withMtu mtu).withState state)).Lifecycle := by
  have sized : ((host.dlc d).withMtu mtu).Sound :=
    (kept.sound d).congr rfl rfl rfl rfl
      fun still => ((kept.sound d).working still).2
  refine kept.setDlc (sized.withState before opening) rfl ?_ rfl
  exact ⟨fun _ => before.listed, fun _ => opening.listed⟩

theorem Lifecycle.dlcConfigure
    (member : d ∈ (host.session s).dlcs) (opening : (host.dlc d).state.Opening) :
    (host.dlcConfigure d).Lifecycle := by
  have own := kept.own member
  unfold RfcommHost.dlcConfigure
  rw [onSession_some own]
  refine (kept.setOpening opening (by decide) _).sendPn (s := s) true ?_
  rw [setDlc_here]
  exact own

theorem Lifecycle.dlcStart
    (member : d ∈ (host.session s).dlcs) (opening : (host.dlc d).state.Opening)
    (security : RfcommSecurity) : (host.dlcStart d security).Lifecycle := by
  cases security with
  | passed => exact kept.dlcConfigure member opening
  | pending => exact kept.setOpening opening (by decide) (host.dlc d).mtu
  | reject => exact kept

theorem Lifecycle.place
    (unused : host.Unused d) (alive : ¬(host.session s).Over) (sound : dlc.Sound)
    (own : dlc.session = some s) (listed : dlc.state.Listed)
    (fresh : ∀ other ∈ (host.session s).dlcs, (host.dlc other).dlci ≠ dlc.dlci) :
    ((host.setDlc d dlc).setSession s ((host.session s).withDlcs
      (d :: (host.session s).dlcs))).Lifecycle := by
  have absent : ∀ other, d ∉ (host.session other).dlcs := by
    intro other member
    have mine := kept.own member
    rw [unused.1] at mine
    cases mine
  have elsewhere : ∀ {other e}, e ∈ (host.session other).dlcs → e ≠ d := by
    rintro other e member rfl
    exact absent other member
  have lists : ∀ other, ((host.setDlc d dlc).setSession s
      ((host.session s).withDlcs (d :: (host.session s).dlcs))).session other =
        if other = s then (host.session s).withDlcs (d :: (host.session s).dlcs)
        else host.session other := by
    intro other
    by_cases here : other = s
    · rw [here, setSession_here, if_pos rfl]
    · rw [setSession_of_ne here, if_neg here]
      rfl
  refine ⟨?_, ?_, ?_, ?_, ?_, kept.world⟩
  · intro other
    by_cases here : other = d
    · rw [here]
      change ((host.setDlc d dlc).dlc d).Sound
      rw [setDlc_here]
      exact sound
    · change ((host.setDlc d dlc).dlc other).Sound
      rw [setDlc_of_ne here]
      exact kept.sound other
  · intro other e
    rw [lists, setSession_dlc]
    by_cases mine : e = d
    · rw [mine, setDlc_here, own]
      by_cases here : other = s
      · rw [if_pos here, here]
        exact ⟨fun _ => ⟨rfl, listed⟩, fun _ => mem_cons_self⟩
      rw [if_neg here]
      exact ⟨fun member => absurd member (absent other),
        fun both => absurd (Option.some.inj both.1).symm here⟩
    · rw [setDlc_of_ne mine]
      by_cases here : other = s
      · rw [if_pos here, here]
        refine Iff.trans ?_ (kept.listed s e)
        exact ⟨fun member => (mem_cons.mp member).resolve_left mine,
          fun member => mem_cons_of_mem _ member⟩
      · rw [if_neg here]
        exact kept.listed other e
  · intro other
    rw [lists]
    by_cases here : other = s
    · rw [if_pos here]
      exact nodup_cons.mpr ⟨absent s, kept.nodup s⟩
    · rw [if_neg here]
      exact kept.nodup other
  · intro other first second
    rw [lists, setSession_dlc]
    by_cases here : other = s
    · rw [if_pos here]
      intro one two same
      rcases mem_cons.mp one with rfl | before
      · rcases mem_cons.mp two with rfl | later
        · rfl
        · rw [setDlc_here, setDlc_of_ne (elsewhere later)] at same
          exact absurd same.symm (fresh second later)
      · rcases mem_cons.mp two with rfl | later
        · rw [setDlc_here, setDlc_of_ne (elsewhere before)] at same
          exact absurd same (fresh first before)
        rw [setDlc_of_ne (elsewhere before), setDlc_of_ne (elsewhere later)] at same
        exact kept.apart s first second before later same
    · rw [if_neg here]
      intro one two same
      rw [setDlc_of_ne (elsewhere one), setDlc_of_ne (elsewhere two)] at same
      exact kept.apart other first second one two same
  · intro other
    rw [lists]
    by_cases here : other = s
    · rw [if_pos here]
      exact fun closed => absurd closed alive
    · rw [if_neg here]
      exact kept.closed other

end

theorem Lifecycle.dlcInit (cfg : RfcommConfig) (kept : host.Lifecycle)
    (role : RfcommRole) (mtu : Nat) (unused : host.Unused d)
    (alive : ¬(host.session s).Over) (fresh : host.lookupDlci s dlci = none) :
    ((host.offered d mtu).dlcInit cfg d s dlci role).Lifecycle ∧
      d ∈ (((host.offered d mtu).dlcInit cfg d s dlci role).session s).dlcs ∧
      (((host.offered d mtu).dlcInit cfg d s dlci role).dlc d).state = .init := by
  unfold RfcommHost.dlcInit offered
  rw [setDlc_setDlc, setDlc_here]
  refine ⟨?_, ?_, ?_⟩
  · refine kept.place unused alive ?_ rfl ?_ (lookupDlci_none fresh)
    · exact (kept.sound d).taken unused.2 rfl rfl rfl rfl
    · exact RfcommState.Opening.listed (.inl rfl)
  · rw [setSession_here]
    exact mem_cons_self
  · rw [setSession_dlc, setDlc_here]

theorem accepted_some (taken : host.accepted accept = some d) :
    ∃ mtu, accept = some (d, mtu) ∧ host.Unused d ∧ checkMtu mtu = true := by
  unfold accepted at taken
  split at taken
  · rename_i other mtu
    split at taken
    · rename_i fits
      cases taken
      exact ⟨mtu, rfl, fits⟩
    · cases taken
  · cases taken

theorem Lifecycle.dlcAccept (cfg : RfcommConfig) (kept : host.Lifecycle)
    (taken : host.accepted accept = some d) (alive : ¬(host.session s).Over)
    (fresh : host.lookupDlci s dlci = none) :
    (host.dlcAccept cfg s dlci accept).Lifecycle ∧
      d ∈ ((host.dlcAccept cfg s dlci accept).session s).dlcs ∧
      ((host.dlcAccept cfg s dlci accept).dlc d).state = .init := by
  obtain ⟨mtu, rfl, unused, fits⟩ := accepted_some taken
  simp only [RfcommHost.dlcAccept, if_neg (not_not_intro unused), fits,
    not_true_eq_false, if_false]
  obtain ⟨ready, member, state⟩ : _ ∧ _ ∧ _ :=
    kept.dlcInit cfg .acceptor mtu unused alive fresh
  refine ⟨?_, member, ?_⟩
  · have sound := ready.sound d
    exact ready.setDlc (sound.congr rfl rfl rfl rfl
      fun still => (sound.working still).2) rfl .rfl rfl
  · rw [setDlc_here]
    exact state

theorem Lifecycle.dlcRefuse (kept : host.Lifecycle) (s : Fin sessions) (dlci : Nat)
    (taken : host.accepted accept = none) :
    (host.dlcAccept cfg s dlci accept).Lifecycle := by
  cases accept with
  | none => exact kept
  | some given =>
    obtain ⟨d, mtu⟩ := given
    by_cases unused : host.Unused d
    · have bad : ¬checkMtu mtu = true := by
        intro fits
        unfold accepted at taken
        simp only at taken
        rw [if_pos ⟨unused, fits⟩] at taken
        cases taken
      simp only [RfcommHost.dlcAccept, if_neg (not_not_intro unused), if_pos bad]
      unfold dlcDestroy offered
      rw [setDlc_here, setDlc_setDlc]
      refine kept.setDlc ((kept.sound d).refused unused.2 rfl rfl rfl rfl
        rfl) unused.1.symm ?_ rfl
      rw [unused.2]
      exact .rfl
    · simp only [RfcommHost.dlcAccept, if_pos unused]
      exact kept

end RfcommHost

end ZephyrBluetooth.Host
