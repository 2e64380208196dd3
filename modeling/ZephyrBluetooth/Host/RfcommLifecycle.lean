import ZephyrBluetooth.Host.RfcommDlcs

namespace ZephyrBluetooth.Host

open Data List Option

variable {dlci index : Nat}

/-! Every DLC of a device goes through its life once, as long as the peer and the
timers do not come in at the wrong moment. -/

variable {sessions dlcs : Nat} {cfg : RfcommConfig}

variable {s : Fin sessions} {d : Fin dlcs}

namespace RfcommHost

variable {host after : RfcommHost sessions dlcs}

def AcceptKeeps (host : RfcommHost sessions dlcs) (s : Fin sessions)
    (dlci : Nat) (accept : RfcommAccept dlcs) : Prop :=
  host.lookupDlci s dlci = none → host.accepted accept = none ∨
    ¬(host.session s).Over

def SabmKeeps (host : RfcommHost sessions dlcs) (s : Fin sessions)
    (dlci : Nat) (accept : RfcommAccept dlcs) : Prop :=
  dlci = 0 ∨ (∀ d ∈ host.lookupDlci s dlci, (host.dlc d).state.Opening) ∧
      host.AcceptKeeps s dlci accept

def UaKeeps (host : RfcommHost sessions dlcs) (s : Fin sessions)
    (dlci : Nat) : Prop :=
  if dlci = 0 then
    (host.session s).state = .disconnecting → (host.session s).dlcs = []
  else
    ∀ d ∈ host.lookupDlci s dlci,
      (host.dlc d).state = .disconnecting → ¬host.Lingers d

def DmKeeps (host : RfcommHost sessions dlcs) (s : Fin sessions)
    (dlci : Nat) : Prop :=
  ∀ d ∈ host.lookupDlci s dlci, ¬host.Lingers d

def DiscKeeps (host : RfcommHost sessions dlcs) (s : Fin sessions)
    (dlci : Nat) : Prop :=
  if dlci = 0 then ∀ d ∈ (host.session s).dlcs, ¬host.Lingers d
  else
    ∀ d ∈ host.lookupDlci s dlci, ¬host.Lingers d ∧
      ((host.dlc d).state = .connected ∨ (host.session s).dlcs ≠ [d])

def RecvKeeps (host : RfcommHost sessions dlcs) (s : Fin sessions)
    (env : RfcommEnv dlcs) : RfcommFrame → Prop
  | .sabm dlci => host.SabmKeeps s dlci env.accept
  | .ua dlci => host.UaKeeps s dlci
  | .dm dlci => host.DmKeeps s dlci
  | .disc dlci => host.DiscKeeps s dlci
  | .pn _ dlci _ _ _ => host.AcceptKeeps s dlci env.accept
  | _ => True

/-- `bt_rfcomm_dlc_connect` does not give a DLC back. -/
def ConnectKeeps (host : RfcommHost sessions dlcs) (s : Fin sessions)
    (security : RfcommSecurity) (chan : Bool) : Prop :=
  if (host.session s).conn then
    (host.session s).state = .init ∧
        ((host.session s).role = .acceptor ∨ chan = true) ∨
      (host.session s).state = .connecting ∨
      (host.session s).state = .connected ∧ security ≠ .reject
  else chan = true

def ThreadKeeps (host : RfcommHost sessions dlcs) (d : Fin dlcs)
    (index : Nat) : Prop :=
  match (host.dlc d).threads[index]? with
  | some (.send _ len) =>
    (host.dlc d).sending = true → ∀ s ∈ (host.dlc d).session,
      host.sendOk s (.uih (host.dlc d).dlci none len) = true
  | _ => True

def KeepsLifecycle (host : RfcommHost sessions dlcs) :
    RfcommInput sessions dlcs → Prop
  | .recv s frame env => host.RecvKeeps s env frame
  | .disconnected s => ∀ d ∈ (host.session s).dlcs, ¬host.Lingers d
  | .dlcConnect _ s _ _ security chan => host.ConnectKeeps s security chan
  | .txThread d index => host.ThreadKeeps d index
  | .dlcTimeout d => (host.dlc d).expired = true →
    (host.dlc d).state.Listed ∧ ¬host.Lingers d
  | .sessionTimeout s _ => (host.session s).expired = true →
    (host.session s).state = .disconnecting → (host.session s).dlcs = []
  | .dummyPool free => free = true
  | _ => True

theorem Lifecycle.cancelRtx (kept : host.Lifecycle) (s : Fin sessions) :
    (host.setSession s (host.session s).cancelRtx).Lifecycle :=
  kept.setSession rfl (kept.closed s)

def sabmProceed (host : RfcommHost sessions dlcs) (s : Fin sessions)
    (dlci : Nat) (security : RfcommSecurity) (d : Fin dlcs) :
    RfcommHost sessions dlcs :=
  match security with
  | .pending => host.setDlc d ((host.dlc d).withState .securityPending)
  | .reject => (host.send s (.dm dlci)).dlcDrop d
  | .passed =>
    if host.sendOk s (.ua dlci) then
      let told := host.send s (.ua dlci)
      (told.setSession s (told.session s).cancelRtx).dlcConnected d
    else host.send s (.ua dlci)

section

variable (kept : host.Lifecycle)
include kept

theorem Lifecycle.sabmProceed (security : RfcommSecurity)
    (member : d ∈ (host.session s).dlcs) (opening : (host.dlc d).state.Opening) :
    (host.sabmProceed s dlci security d).Lifecycle := by
  unfold RfcommHost.sabmProceed
  cases security with
  | pending => exact kept.setOpening opening (by decide) (host.dlc d).mtu
  | reject =>
    refine (kept.send s (.dm dlci)).dlcDrop (s := s) ?_ ?_
    · rw [send_session]
      exact member
    · rw [send_dlc]
      exact kept.quiet opening
  | passed =>
    simp only
    split
    · refine ((kept.send s (.ua dlci)).cancelRtx s).dlcConnected
        (s := s) ?_ ?_
      · rw [setSession_here]
        rw [send_session]
        exact member
      · rw [setSession_dlc, send_dlc]
        exact opening
    · exact kept.send s (.ua dlci)

theorem Lifecycle.handleSabm {accept : RfcommAccept dlcs}
    (security : RfcommSecurity) (linked : (host.session s).conn = true)
    (keeps : host.SabmKeeps s dlci accept) :
    (host.handleSabm cfg s dlci accept security).Lifecycle := by
  unfold RfcommHost.handleSabm
  simp only
  split
  · split
    · refine (kept.send s (.ua 0)).setSession rfl ?_
      rw [send_session]
      intro closed
      rcases closed with idle | ended | down
      · cases idle
      · cases ended
      · rw [show ((host.session s).withState .connected).conn =
          (host.session s).conn from rfl, linked] at down
        cases down
    · exact kept.send s (.ua 0)
  · rename_i named
    obtain ⟨opening, accepts⟩ := keeps.resolve_left named
    cases found : host.lookupDlci s dlci with
    | some d =>
      exact kept.sabmProceed security (lookupDlci_some found).1 (opening d found)
    | none =>
      cases taken : host.accepted accept with
      | none => exact (kept.dlcRefuse s dlci taken).send s (.dm dlci)
      | some =>
        have alive : ¬(host.session s).Over := by
          rcases accepts found with none | alive
          · rw [taken] at none
            cases none
          · exact alive
        obtain ⟨ready, member, state⟩ : _ ∧ _ ∧ _ :=
          kept.dlcAccept cfg taken alive found
        exact ready.sabmProceed security member (.inl state)

theorem Lifecycle.retouch {dlc : RfcommDlc sessions}
    (session : dlc.session = (host.dlc d).session)
    (state : dlc.state = (host.dlc d).state)
    (threads : dlc.threads = (host.dlc d).threads)
    (calls : dlc.calls = (host.dlc d).calls) (dlci : dlc.dlci = (host.dlc d).dlci)
    (queue : dlc.txQueue = (host.dlc d).txQueue) :
    (host.setDlc d dlc).Lifecycle := by
  refine kept.setDlc ((kept.sound d).congr session state threads calls ?_)
    session (by rw [state]) dlci
  rw [queue]
  exact fun still => ((kept.sound d).working still).2

theorem Lifecycle.dlcDrop_session (member : d ∈ (host.session s).dlcs) :
    ((host.dlcDrop d).session s).dlcs = (host.session s).dlcs.erase d := by
  unfold RfcommHost.dlcDrop
  rw [onSession_some (kept.own member), kept.removeDlci_eq member]
  change ((host.setSession s _).session s).dlcs = _
  rw [setSession_here]
  rfl

theorem Lifecycle.dlcStart_session (member : d ∈ (host.session s).dlcs)
    (security : RfcommSecurity) :
    (host.dlcStart d security).session = host.session := by
  have own := kept.own member
  cases security with
  | passed =>
    change (host.dlcConfigure d).session = _
    unfold RfcommHost.dlcConfigure
    rw [onSession_some own]
    obtain ⟨_, effect⟩ := sendPn_effect (d := d) (s := s) true
      (show ((host.setDlc d (((host.dlc d).withMtu (min (host.dlc d).mtu
        (host.session s).mtu)).withState .config)).dlc d).session = some s by
          rw [setDlc_here]
          exact own)
    rw [effect, send_session]
    rfl
  | pending => rfl
  | reject => rfl

theorem Lifecycle.startAll (security : Fin dlcs → RfcommSecurity)
    {list : List (Fin dlcs)} (distinct : list.Nodup)
    (inside : ∀ d ∈ list, d ∈ (host.session s).dlcs) :
    (startAll security list host).Lifecycle := by
  induction list generalizing host with
  | nil => exact kept
  | cons d rest ih =>
    have member := inside d mem_cons_self
    have later : ∀ other ∈ rest, other ≠ d := by
      rintro other listed rfl
      exact (nodup_cons.mp distinct).1 listed
    unfold RfcommHost.startAll
    split
    · rename_i waits
      have opening : (host.dlc d).state.Opening := .inl waits.2
      split
      · apply ih (kept.dlcDrop member (kept.quiet opening))
          (nodup_cons.mp distinct).2
        intro other listed
        rw [kept.dlcDrop_session member]
        exact (mem_erase_of_ne (later other listed)).mpr
          (inside other (mem_cons_of_mem _ listed))
      · apply ih (kept.dlcStart member opening (security d))
          (nodup_cons.mp distinct).2
        intro other listed
        rw [kept.dlcStart_session member]
        exact inside other (mem_cons_of_mem _ listed)
    · exact ih kept (nodup_cons.mp distinct).2
        fun other listed => inside other (mem_cons_of_mem _ listed)

theorem Lifecycle.handleUa (security : Fin dlcs → RfcommSecurity) (left : Bool)
    (linked : (host.session s).conn = true) (keeps : host.UaKeeps s dlci) :
    (host.handleUa s dlci security left).Lifecycle := by
  unfold RfcommHost.handleUa
  split
  · rename_i zero
    cases state : (host.session s).state with
    | connecting =>
      have entered : (host.setSession s ((host.session s).withState
          .connected)).Lifecycle := by
        refine kept.setSession rfl ?_
        rintro (idle | ended | down)
        · cases idle
        · cases ended
        · rw [show ((host.session s).withState .connected).conn =
            (host.session s).conn from rfl, linked] at down
          cases down
      refine (entered.startAll (s := s) security (kept.nodup s)
        ?_).sessionDisconnect s
      intro d listed
      rw [setSession_here]
      exact listed
    | disconnecting =>
      unfold UaKeeps at keeps
      rw [if_pos zero] at keeps
      exact kept.setSession rfl fun _ => keeps state
    | _ => exact kept
  · rename_i named
    unfold UaKeeps at keeps
    rw [if_neg named] at keeps
    cases found : host.lookupDlci s dlci with
    | none => exact kept
    | some d =>
      have member := (lookupDlci_some found).1
      cases state : (host.dlc d).state with
      | connecting =>
        simp only [state]
        exact kept.dlcConnected member (by rw [state]; decide)
      | disconnecting =>
        have calm := keeps d found state
        have none : (host.dlc d).threads = [] := by
          by_contra some
          exact calm ⟨some, by rw [state]; decide⟩
        simp only [state]
        exact (kept.dlcDrop member none).sessionDisconnect s
      | _ => simpa only [state] using kept

theorem Lifecycle.handleDm (keeps : host.DmKeeps s dlci) :
    (host.handleDm s dlci).Lifecycle := by
  unfold RfcommHost.handleDm
  cases found : host.lookupDlci s dlci with
  | none => exact kept
  | some d =>
    obtain ⟨member, named⟩ := lookupDlci_some found
    rw [← named]
    exact (kept.leave _ member (keeps d found) rfl rfl rfl).1.sessionDisconnect s

theorem Lifecycle.agreePn (s : Fin sessions) (d : Fin dlcs) (flow : Bool)
    (credits : Nat) : (host.agreePn s d flow credits).Lifecycle := by
  unfold RfcommHost.agreePn
  split
  · split
    · have agreed : (host.setSession s ((host.session s).withCfc
          .supported)).Lifecycle := kept.setSession rfl (kept.closed s)
      exact agreed.retouch rfl rfl rfl rfl rfl rfl
    · exact kept.retouch rfl rfl rfl rfl rfl rfl
  · exact kept.setSession rfl (kept.closed s)

end

theorem agreePn_same (host : RfcommHost sessions dlcs) (s : Fin sessions)
    (d : Fin dlcs) (flow : Bool) (credits : Nat) :
    ((host.agreePn s d flow credits).dlc d).state = (host.dlc d).state ∧
      ((host.agreePn s d flow credits).dlc d).session = (host.dlc d).session ∧
      ((host.agreePn s d flow credits).session s).dlcs = (host.session s).dlcs := by
  unfold agreePn
  split
  · split
    · rw [setDlc_here, setDlc_session, setSession_here]
      exact ⟨rfl, rfl, rfl⟩
    · rw [setDlc_here]
      exact ⟨rfl, rfl, rfl⟩
  · rw [setSession_here]
    exact ⟨rfl, rfl, rfl⟩

section

variable (kept : host.Lifecycle)
include kept

theorem Lifecycle.handlePn {cmd : Bool} {mtu flowCtrl credits : Nat}
    {accept : RfcommAccept dlcs} (keeps : host.AcceptKeeps s dlci accept) :
    (host.handlePn cfg s cmd dlci mtu flowCtrl credits accept).Lifecycle := by
  unfold RfcommHost.handlePn
  cases found : host.lookupDlci s dlci with
  | none =>
    simp only
    split
    · exact kept
    split
    · exact kept.send s (.dm dlci)
    cases taken : host.accepted accept with
    | none => exact (kept.dlcRefuse s dlci taken).send s (.dm dlci)
    | some d =>
      have alive : ¬(host.session s).Over := by
        rcases keeps found with none | alive
        · rw [taken] at none
          cases none
        · exact alive
      obtain ⟨ready, member, state⟩ : _ ∧ _ ∧ _ :=
        kept.dlcAccept cfg taken alive found
      simp only
      generalize host.dlcAccept cfg s dlci accept = now at *
      have sized : (now.setDlc d ((now.dlc d).withMtu
          (min (now.dlc d).mtu mtu))).Lifecycle :=
        ready.retouch rfl rfl rfl rfl rfl rfl
      have opening : ((now.setDlc d ((now.dlc d).withMtu
          (min (now.dlc d).mtu mtu))).dlc d).state = .init := by
        rw [setDlc_here]
        exact state
      have own : ((now.setDlc d ((now.dlc d).withMtu
          (min (now.dlc d).mtu mtu))).dlc d).session = some s := by
        rw [setDlc_here]
        exact ready.own member
      generalize now.setDlc d ((now.dlc d).withMtu
        (min (now.dlc d).mtu mtu)) = between at *
      obtain ⟨still, mine, _⟩ := agreePn_same between s d
        (flowCtrl = pnCfcCmd) credits
      have agreed := sized.agreePn s d (flowCtrl = pnCfcCmd) credits
      generalize between.agreePn s d (flowCtrl = pnCfcCmd) credits = now at *
      have entered : (now.setDlc d ((now.dlc d).withState .config)).Lifecycle :=
        agreed.setOpening (by rw [still, opening]; decide) (by decide)
          (now.dlc d).mtu
      refine (entered.sendPn (s := s) false ?_).cancelRtx s
      rw [setDlc_here]
      exact mine.trans own
  | some d =>
    have member := (lookupDlci_some found).1
    simp only
    split
    · split
      · exact kept.dlcClose member
      have sized : (host.setDlc d ((host.dlc d).withMtu
          (min (host.dlc d).mtu mtu))).Lifecycle :=
        kept.retouch rfl rfl rfl rfl rfl rfl
      refine sized.sendPn (s := s) false ?_
      rw [setDlc_here]
      exact kept.own member
    · split
      · exact kept
      rename_i config
      have config : (host.dlc d).state = .config := not_not.mp config
      have sized : (host.setDlc d ((host.dlc d).withMtu
          (min (host.dlc d).mtu mtu))).Lifecycle :=
        kept.retouch rfl rfl rfl rfl rfl rfl
      obtain ⟨still, _, _⟩ := agreePn_same (host.setDlc d
        ((host.dlc d).withMtu (min (host.dlc d).mtu mtu))) s d
          (flowCtrl = pnCfcResp) credits
      have agreed := sized.agreePn s d (flowCtrl = pnCfcResp) credits
      generalize (host.setDlc d ((host.dlc d).withMtu
        (min (host.dlc d).mtu mtu))).agreePn s d (flowCtrl = pnCfcResp)
          credits = now at *
      have entered : (now.setDlc d ((now.dlc d).withState
          .connecting)).Lifecycle := by
        refine agreed.setOpening ?_ (by decide) (now.dlc d).mtu
        rw [still, setDlc_here]
        exact .inr (.inr (.inr config))
      exact entered.send s _

theorem Lifecycle.handleDisc (keeps : host.DiscKeeps s dlci) :
    (host.handleDisc s dlci).Lifecycle := by
  unfold RfcommHost.handleDisc
  unfold DiscKeeps at keeps
  split
  · rename_i zero
    rw [if_pos zero] at keeps
    refine ((kept.cancelRtx s).send s (.ua 0)).sessionDisconnected s ?_
    rw [send_session, setSession_here]
    intro d listed lingers
    unfold Lingers at lingers
    rw [send_dlc] at lingers
    exact keeps d listed lingers
  · rename_i named
    rw [if_neg named] at keeps
    cases found : host.lookupDlci s dlci with
    | none => exact kept.send s (.dm dlci)
    | some d =>
      obtain ⟨member, same⟩ := lookupDlci_some found
      obtain ⟨calm, last⟩ := keeps d found
      simp only
      rw [← same]
      obtain ⟨gone, shorter, own⟩ := kept.leave
        ((host.removeDlci s (host.dlc d).dlci).send s
          (.ua (host.dlc d).dlci)) member calm (by simp) (by simp) (by simp)
      split
      · rename_i empty
        have connected : (host.dlc d).state = .connected := by
          refine last.resolve_right fun more => more ?_
          rw [shorter] at empty
          have one := perm_cons_erase member
          rw [empty] at one
          exact perm_singleton.mp one
        rw [onSession_some (own connected)]
        exact gone.setSession rfl (gone.closed s)
      · exact gone

theorem Lifecycle.handleMsc (s : Fin sessions) (cmd : Bool) (dlci signal : Nat) :
    (host.handleMsc s cmd dlci signal).Lifecycle := by
  unfold RfcommHost.handleMsc
  cases found : host.lookupDlci s dlci with
  | none => exact kept
  | some =>
    simp only
    split
    · exact kept
    rw [onSession_some (kept.own (lookupDlci_some found).1)]
    split
    · split
      · refine Lifecycle.send ?_ s _
        exact kept.retouch rfl rfl rfl rfl rfl rfl
      · refine Lifecycle.send ?_ s _
        exact kept.retouch rfl rfl rfl rfl rfl rfl
    · exact kept.send s _

theorem Lifecycle.handleRls (s : Fin sessions) (cmd : Bool) (dlci status : Nat) :
    (host.handleRls s cmd dlci status).Lifecycle := by
  unfold RfcommHost.handleRls
  split
  · exact kept
  cases found : host.lookupDlci s dlci with
  | none => exact kept
  | some =>
    simp only
    rw [onSession_some (kept.own (lookupDlci_some found).1)]
    exact kept.send s _

theorem Lifecycle.handleMsg (s : Fin sessions) (frame : RfcommFrame) :
    (host.handleMsg s frame).Lifecycle := by
  have flow : ∀ (on : Bool) (answer : RfcommFrame), ((host.setSession s
      ((host.session s).withFc on)).send s answer).Lifecycle := by
    intro on answer
    have set : (host.setSession s ((host.session s).withFc on)).Lifecycle :=
      kept.setSession rfl (kept.closed s)
    exact set.send s answer
  unfold RfcommHost.handleMsg
  split
  · split
    · exact kept.send s _
    · exact kept
  · split
    · exact kept.send s _
    · exact kept
  · split
    · exact kept
    · exact flow true _
  · split
    · exact kept
    · exact flow false _
  · exact kept.send s _
  · exact kept

theorem Lifecycle.dlcUpdateCredits (own : (host.dlc d).session = some s) :
    (host.dlcUpdateCredits cfg d).Lifecycle := by
  unfold RfcommHost.dlcUpdateCredits
  rw [onSession_some own]
  simp only
  split
  · exact kept
  · refine Lifecycle.send ?_ s _
    exact kept.retouch rfl rfl rfl rfl rfl rfl

theorem Lifecycle.handleData (s : Fin sessions) (dlci : Nat) (credits : Option Nat)
    (len : Nat) : (host.handleData cfg s dlci credits len).Lifecycle := by
  unfold RfcommHost.handleData
  cases found : host.lookupDlci s dlci with
  | none => exact kept.send s _
  | some d =>
    have member := (lookupDlci_some found).1
    have given : (host.setDlc d ((host.dlc d).giveCredits
        (credits.getD 0))).Lifecycle :=
      kept.retouch rfl rfl rfl rfl rfl rfl
    have own : ((host.setDlc d ((host.dlc d).giveCredits
        (credits.getD 0))).dlc d).session = some s := by
      rw [setDlc_here]
      exact kept.own member
    simp only
    split
    · exact kept
    split
    · exact given
    rw [onSession_some own]
    split
    · exact given.dlcClose (s := s) member
    generalize host.setDlc d ((host.dlc d).giveCredits (credits.getD 0)) = now at *
    have counted : (now.setDlc d ((now.dlc d).withRxCredit
        (((now.dlc d).rxCredit + 255) % 256))).Lifecycle :=
      given.retouch rfl rfl rfl rfl rfl rfl
    refine counted.dlcUpdateCredits (s := s) ?_
    rw [setDlc_here]
    exact own

theorem Lifecycle.recv {frame : RfcommFrame} {env : RfcommEnv dlcs}
    (linked : (host.session s).conn = true) (keeps : host.RecvKeeps s env frame) :
    (host.recv cfg s frame env).Lifecycle := by
  cases frame with
  | sabm => exact kept.handleSabm _ linked keeps
  | ua => exact kept.handleUa env.security env.left linked keeps
  | dm => exact kept.handleDm keeps
  | disc => exact kept.handleDisc keeps
  | uih dlci credits len =>
    unfold RfcommHost.recv
    simp only
    split
    · exact kept
    · exact kept.handleData s dlci credits len
  | pn => exact kept.handlePn keeps
  | msc cmd dlci signal => exact kept.handleMsc s cmd dlci signal
  | rls cmd dlci status => exact kept.handleRls s cmd dlci status
  | rpn cmd values => exact kept.handleMsg s (.rpn cmd values)
  | test cmd len => exact kept.handleMsg s (.test cmd len)
  | fcon cmd => exact kept.handleMsg s (.fcon cmd)
  | fcoff cmd => exact kept.handleMsg s (.fcoff cmd)
  | other type => exact kept.handleMsg s (.other type)

theorem Lifecycle.encryptChangeDlc (member : d ∈ (host.session s).dlcs)
    (passed : Bool) : (host.encryptChangeDlc s d passed).Lifecycle ∧
      ∀ other, other ≠ d → other ∈ (host.session s).dlcs →
        other ∈ ((host.encryptChangeDlc s d passed).session s).dlcs := by
  have own := kept.own member
  unfold RfcommHost.encryptChangeDlc
  split
  · exact ⟨kept, fun _ _ listed => listed⟩
  rename_i pending
  have pending : (host.dlc d).state = .securityPending := not_not.mp pending
  have opening : (host.dlc d).state.Opening := .inr (.inl pending)
  split
  · refine ⟨kept.dlcClose member, ?_⟩
    intro other apart listed
    have left : ∀ now : RfcommHost sessions dlcs, now.Lifecycle →
        d ∈ (now.session s).dlcs → other ∈ (now.session s).dlcs →
          other ∈ ((now.dlcDrop d).session s).dlcs := by
      intro now kept here there
      rw [kept.dlcDrop_session here]
      exact (mem_erase_of_ne apart).mpr there
    unfold RfcommHost.dlcClose
    simp only [pending]
    split
    · rw [onSession_some own]
      exact left _ (kept.send s _) (by rw [send_session]; exact member)
        (by rw [send_session]; exact listed)
    · exact left host kept member listed
  · split
    · have told := kept.send s (.ua (host.dlc d).dlci)
      have here : d ∈ ((host.send s (.ua (host.dlc d).dlci)).session s).dlcs := by
        rw [send_session]
        exact member
      refine ⟨told.dlcConnected here (by rw [send_dlc]; exact opening), ?_⟩
      intro other _ listed
      obtain ⟨_, _, _, session, _, _⟩ := dlcConnected_effect (told.own here)
      rw [session, setSession_here, send_session]
      exact listed
    · have entered : (host.setDlc d (((host.dlc d).withMtu
          (min (host.dlc d).mtu (host.session s).mtu)).withState
            .config)).Lifecycle :=
        kept.setOpening opening (by decide) _
      have mine : ((host.setDlc d (((host.dlc d).withMtu
          (min (host.dlc d).mtu (host.session s).mtu)).withState .config)).dlc
            d).session = some s := by
        rw [setDlc_here]
        exact own
      refine ⟨entered.sendPn true mine, ?_⟩
      intro other _ listed
      obtain ⟨_, effect⟩ := sendPn_effect true mine
      rw [effect, send_session]
      exact listed

theorem Lifecycle.encryptChange (passed : Fin dlcs → Bool) {list : List (Fin dlcs)}
    (distinct : list.Nodup) (inside : ∀ d ∈ list, d ∈ (host.session s).dlcs) :
    (encryptChange s passed list host).Lifecycle := by
  induction list generalizing host with
  | nil => exact kept
  | cons d rest ih =>
    obtain ⟨first, others⟩ := kept.encryptChangeDlc
      (inside d mem_cons_self) (passed d)
    apply ih first (nodup_cons.mp distinct).2
    intro other listed
    refine others other ?_ (inside other (mem_cons_of_mem _ listed))
    rintro rfl
    exact (nodup_cons.mp distinct).1 listed

theorem Lifecycle.sessionRtxTimeout (s : Fin sessions) (left : Bool)
    (keeps : (host.session s).expired = true →
      (host.session s).state = .disconnecting → (host.session s).dlcs = []) :
    (host.sessionRtxTimeout s left).Lifecycle := by
  have taken : (host.setSession s
      ((host.session s).withRtx (host.session s).timer false)).Lifecycle :=
    kept.setSession rfl (kept.closed s)
  unfold RfcommHost.sessionRtxTimeout
  split
  · rename_i expired
    cases state : (host.session s).state with
    | connected => exact taken.sessionDisconnect s
    | disconnecting =>
      refine taken.setSession rfl ?_
      rw [setSession_here]
      exact fun _ => keeps expired state
    | _ => exact taken
  · exact kept

theorem Lifecycle.dlcRtxTimeout (keeps : (host.dlc d).expired = true →
      (host.dlc d).state.Listed ∧ ¬host.Lingers d) :
    (host.dlcRtxTimeout d).Lifecycle := by
  unfold RfcommHost.dlcRtxTimeout
  split
  · rename_i expired
    obtain ⟨listed, calm⟩ := keeps expired
    generalize named : (host.dlc d).withRtx (host.dlc d).timer false = dlc
    obtain ⟨s, own⟩ := ne_none_iff_exists'.mp
      ((kept.sound d).session_ne_none listed.1)
    have member : d ∈ (host.session s).dlcs := (kept.listed s d).mpr ⟨own, listed⟩
    have taken : (host.setDlc d dlc).Lifecycle := by
      rw [← named]
      exact kept.retouch rfl rfl rfl rfl rfl rfl
    have here : (host.setDlc d dlc).dlc d = dlc := setDlc_here ..
    have mine : ((host.setDlc d dlc).dlc d).session = some s := by
      rw [here, ← named]
      exact own
    have quiet : ¬(host.setDlc d dlc).Lingers d := by
      unfold Lingers
      rw [here, ← named]
      exact calm
    rw [onSession_some mine]
    have gone := taken.leave (s := s) _ member quiet rfl rfl rfl
    rw [here] at gone
    subst named
    exact gone.1.sessionDisconnect s
  · exact kept

theorem Lifecycle.setUnlisted {dlc : RfcommDlc sessions} (sound : dlc.Sound)
    (before : ¬(host.dlc d).state.Listed) (after : ¬dlc.state.Listed) :
    (host.setDlc d dlc).Lifecycle := by
  have absent : ∀ {s e}, e ∈ (host.session s).dlcs → e ≠ d := by
    rintro s e member rfl
    exact before ((kept.listed s e).mp member).2
  refine ⟨?_, ?_, kept.nodup, ?_, kept.closed, kept.world⟩
  · intro other
    by_cases here : other = d
    · rw [here, setDlc_here]
      exact sound
    · rw [setDlc_of_ne here]
      exact kept.sound other
  · intro s other
    by_cases here : other = d
    · rw [here, setDlc_here]
      exact ⟨fun member => absurd rfl (absent member),
        fun both => absurd both.2 after⟩
    · rw [setDlc_of_ne here]
      exact kept.listed s other
  · intro s first second one two
    rw [setDlc_of_ne (absent one), setDlc_of_ne (absent two)]
    exact kept.apart s first second one two

theorem Lifecycle.setThread {old now : RfcommTxAt} (queue : List (Option Nat))
    (credits : Nat) (stands : (host.dlc d).threads[index]? = some old)
    (waits : ∀ buf ∈ queue, buf ∈ (host.dlc d).txQueue)
    (works : (host.dlc d).state = .connected → old.Working → now.Working) :
    ((host.setDlc d (((host.dlc d).withTxQueue queue).withTxCredits credits
      (host.dlc d).binary)).setThread d index now).Lifecycle := by
  unfold RfcommHost.setThread
  rw [setDlc_here, setDlc_setDlc]
  have sound := kept.sound d
  refine kept.setDlc (sound.thread rfl rfl ?_ rfl ?_) rfl .rfl rfl
  · exact length_set
  · intro connected
    obtain ⟨working, real⟩ := sound.working connected
    refine ⟨?_, fun dummy => real (waits none dummy)⟩
    intro seen member
    rcases mem_or_eq_of_mem_set member with listed | new
    · exact working seen listed
    · rw [new]
      exact works connected (working old (mem_of_getElem? stands))

theorem Lifecycle.stepThread {old now : RfcommTxAt}
    (stands : (host.dlc d).threads[index]? = some old)
    (works : (host.dlc d).state = .connected → old.Working → now.Working) :
    (host.setThread d index now).Lifecycle := by
  have same := kept.setThread (host.dlc d).txQueue (host.dlc d).txCredits
    stands (fun _ member => member) works
  have idle : host.setDlc d (((host.dlc d).withTxQueue
      (host.dlc d).txQueue).withTxCredits (host.dlc d).txCredits
        (host.dlc d).binary) = host := by
    unfold RfcommHost.setDlc
    rw [show ((host.dlc d).withTxQueue (host.dlc d).txQueue).withTxCredits
      (host.dlc d).txCredits (host.dlc d).binary = host.dlc d from rfl,
      Function.update_eq_self]
  rwa [idle] at same

theorem Lifecycle.txThreadExit (stands : (host.dlc d).threads[index]? = some .exit) :
    (host.txThreadExit d index).Lifecycle := by
  have sound := kept.sound d
  have thread : (host.dlc d).threads ≠ [] := by
    intro none
    rw [none] at stands
    cases stands
  have last : (host.dlc d).threads.eraseIdx index = [] := by
    obtain ⟨inside, _⟩ := List.getElem?_eq_some_iff.mp stands
    have one := sound.one
    rw [← length_eq_zero_iff, length_eraseIdx, if_pos inside]
    omega
  have used : (host.dlc d).state ≠ .idle :=
    fun idle => thread (sound.quiet (.inl idle))
  have ended : (host.dlc d).state ≠ .connected := fun connected =>
    (sound.working connected).1 .exit (mem_of_getElem? stands)
  unfold RfcommHost.txThreadExit
  simp only
  split
  · rename_i closing
    have closing : (host.dlc d).state = .userDisconnect ∨
        (host.dlc d).state = .disconnecting := closing
    have listed : (host.dlc d).state.Listed := by
      rcases closing with state | state <;> rw [state] <;> decide
    obtain ⟨s, own⟩ := ne_none_iff_exists'.mp (sound.session_ne_none used)
    have left : (host.setDlc d ((((host.dlc d).withTxQueue []).withThreads
        ((host.dlc d).threads.eraseIdx index)).withState
          .disconnecting)).Lifecycle := by
      refine kept.setDlc (sound.left thread used rfl rfl last rfl) rfl ?_ rfl
      exact ⟨fun _ => listed, fun _ => RfcommState.listed_disconnecting⟩
    generalize named : host.setDlc d ((((host.dlc d).withTxQueue
      []).withThreads ((host.dlc d).threads.eraseIdx index)).withState
        .disconnecting) = now at *
    have mine : (now.dlc d).session = some s := by
      rw [← named, setDlc_here]
      exact own
    rw [onSession_some mine]
    have told := left.send s (.disc (host.dlc d).dlci)
    have sound := told.sound d
    refine told.setDlc (sound.congr rfl rfl rfl rfl ?_) rfl .rfl rfl
    exact fun still => (sound.working still).2
  · rename_i other
    have gone : (host.dlc d).state = .disconnected := by
      have notQuiet : ¬((host.dlc d).state = .idle ∨
          (host.dlc d).state.Opening) := fun quiet => thread (sound.quiet quiet)
      have other : ¬((host.dlc d).state = .userDisconnect ∨
        (host.dlc d).state = .disconnecting) := other
      unfold RfcommState.Opening at notQuiet
      cases state : (host.dlc d).state <;> simp_all
    unfold dlcDestroy
    rw [setDlc_here, setDlc_setDlc, last]
    refine kept.setUnlisted (sound.ended gone) (by rw [gone]; decide) ?_
    exact fun still => still.1 rfl

theorem Lifecycle.dlcTxThread (keeps : host.ThreadKeeps d index) :
    (host.dlcTxThread d index).Lifecycle := by
  have sound := kept.sound d
  unfold RfcommHost.dlcTxThread
  cases stands : (host.dlc d).threads[index]? with
  | none => simpa only [stands] using kept
  | some point =>
    have thread : (host.dlc d).threads ≠ [] := by
      intro none
      rw [none] at stands
      cases stands
    have used : (host.dlc d).state ≠ .idle :=
      fun idle => thread (sound.quiet (.inl idle))
    obtain ⟨s, own⟩ := ne_none_iff_exists'.mp (sound.session_ne_none used)
    have going : (host.dlc d).state = .connected → (host.dlc d).sending = true := by
      intro connected
      unfold RfcommDlc.sending
      rw [connected]
      rfl
    cases point with
    | loop noWait =>
      simp only [stands]
      split
      · exact kept.stepThread stands fun _ works => works
      · rename_i closed
        exact kept.stepThread stands fun connected _ => absurd (going connected) closed
    | wait noWait =>
      simp only [stands]
      cases queue : (host.dlc d).txQueue with
      | nil =>
        simp only
        split
        · rename_i still
          refine kept.stepThread stands fun _ works => ?_
          cases works.symm.trans still
        · exact kept
      | cons buf rest =>
        have taken : ∀ now, ((host.dlc d).state = .connected →
            noWait = false → RfcommTxAt.Working now) →
              ((host.setDlc d ((host.dlc d).withTxQueue rest)).setThread d
                index now).Lifecycle := by
          intro now works
          exact kept.setThread rest (host.dlc d).txCredits stands (fun _ member => by
              rw [queue]
              exact mem_cons_of_mem _ member) works
        cases buf with
        | none =>
          refine taken .exit fun connected _ => ?_
          refine absurd ?_ (sound.working connected).2
          rw [queue]
          exact mem_cons_self
        | some len =>
          simp only
          split
          · exact taken _ fun _ works => works
          rename_i closed
          exact taken _ fun connected _ =>
            absurd (going connected) closed
    | credits noWait =>
      simp only [stands]
      split
      · exact kept
      have mine : ((host.setDlc d ((host.dlc d).withTxCredits
          ((host.dlc d).txCredits - 1) (host.dlc d).binary)).dlc
            d).session = some s := by
        rw [setDlc_here]
        exact own
      rw [onSession_some mine]
      have taken : ∀ now, ((host.dlc d).state = .connected →
          noWait = false → RfcommTxAt.Working now) →
            ((host.setDlc d ((host.dlc d).withTxCredits
              ((host.dlc d).txCredits - 1) (host.dlc d).binary)).setThread
                d index now).Lifecycle := by
        intro now works
        exact kept.setThread (host.dlc d).txQueue
          ((host.dlc d).txCredits - 1) stands (fun _ member => member) works
      split
      · exact taken _ fun _ works => works
      · exact taken _ fun _ works => works
    | fc =>
      simp only [stands]
      rw [onSession_some own]
      split
      · unfold RfcommDlc.giveCredits
        exact kept.setThread (host.dlc d).txQueue _ stands
          (fun _ member => member) fun _ works => works
      · exact kept
    | send noWait len =>
      simp only [stands]
      split
      · rename_i closed
        refine kept.stepThread stands fun connected _ => absurd (going connected) ?_
        simpa using closed
      · rename_i still
        have still : (host.dlc d).sending = true := by simpa using still
        simp only [ThreadKeeps, stands] at keeps
        have taken := keeps still s own
        rw [onSession_some own, if_pos taken]
        have told := kept.send s (.uih (host.dlc d).dlci none len)
        refine told.stepThread (by rw [send_dlc]; exact stands) ?_
        rw [send_dlc]
        intro connected works
        rw [show noWait = false from works, connected]
        rfl
    | exit =>
      simp only [stands]
      exact kept.txThreadExit stands

end

theorem init_session (d : Fin dlcs) (s : Fin sessions) (dlci mtu : Nat)
    (role : RfcommRole) :
    ((host.offered d mtu).dlcInit cfg d s dlci role).session s =
      (host.session s).withDlcs (d :: (host.session s).dlcs) :=
  setSession_here ..

theorem Lifecycle.connectChan (cfg : RfcommConfig) (kept : host.Lifecycle)
    (mtu : Nat) (unused : host.Unused d) (fresh : host.lookupDlci s dlci = none) :
    (((host.offered d mtu).dlcInit cfg d s dlci .initiator).setSession s
      (((((host.offered d mtu).dlcInit cfg d s dlci .initiator).session
        s).withState .connecting).withLink true true)).Lifecycle := by
  have alive : ¬(((host.session s).withState .connecting).withLink true
      true).Over := by
    rintro (idle | ended | down)
    · cases idle
    · cases ended
    · cases down
  have linked : (host.setSession s (((host.session s).withState
      .connecting).withLink true true)).Lifecycle :=
    kept.setSession rfl fun closed => absurd closed alive
  have absent : (host.setSession s (((host.session s).withState
      .connecting).withLink true true)).lookupDlci s dlci = none := by
    unfold lookupDlci
    rw [setSession_here]
    exact fresh
  have opened := (linked.dlcInit cfg .initiator mtu unused
    (by rw [setSession_here]; exact alive) absent).1
  refine opened.of_eq ?_ rfl rfl
  rw [init_session]
  change Function.update (Function.update host.session s _) s _ =
    Function.update (Function.update host.session s _) s _
  rw [Function.update_idem, Function.update_idem]
  change _ = Function.update host.session s
    (((host.setSession s _).session s).withDlcs
      (d :: ((host.setSession s _).session s).dlcs))
  rw [setSession_here]
  rfl

section

variable (kept : host.Lifecycle)
include kept

theorem Lifecycle.dlcConnect {channel mtu : Nat} {security : RfcommSecurity}
    {chan : Bool} (keeps : host.ConnectKeeps s security chan) :
    (host.dlcConnect cfg d s channel mtu security chan).Lifecycle := by
  unfold RfcommHost.dlcConnect
  unfold ConnectKeeps at keeps
  split
  · exact kept
  rename_i fits
  have unused : host.Unused d := by
    by_contra used
    exact fits (.inr (.inr (.inr used)))
  by_cases linked : (host.session s).conn = true
  · rw [if_pos linked] at keeps
    simp only [if_pos linked]
    split
    · exact kept
    rename_i absent
    have fresh : host.lookupDlci s (dlciOf (host.session s).role channel) =
        none := by simpa using absent
    have alive : (host.session s).state ≠ .idle →
        (host.session s).state ≠ .disconnected → ¬(host.session s).Over := by
      rintro idle ended (here | here | down)
      · exact idle here
      · exact ended here
      · rw [linked] at down
        cases down
    cases state : (host.session s).state with
    | init =>
      obtain ⟨ready, _, _⟩ := kept.dlcInit cfg .initiator mtu unused
        (alive (by rw [state]; nofun) (by rw [state]; nofun)) fresh
      have waits : (host.session s).role = .acceptor ∨ chan = true := by
        simpa [state] using keeps
      simp only [init_session, RfcommSession.withDlcs, state]
      split
      · exact ready
      rename_i role
      rw [if_pos (waits.resolve_left role)]
      have opened := kept.connectChan cfg mtu unused fresh
      rw [init_session] at opened
      exact opened
    | connecting =>
      obtain ⟨ready, _, _⟩ := kept.dlcInit cfg .initiator mtu unused
        (alive (by rw [state]; nofun) (by rw [state]; nofun)) fresh
      simp only [init_session, RfcommSession.withDlcs, state]
      exact ready
    | connected =>
      obtain ⟨ready, member, entered⟩ := kept.dlcInit cfg .initiator mtu
        unused (alive (by rw [state]; nofun) (by rw [state]; nofun)) fresh
      have safe : security ≠ .reject := by simpa [state] using keeps
      simp only [init_session, RfcommSession.withDlcs, state, if_neg safe]
      exact (ready.dlcStart member (.inl entered) security).cancelRtx s
    | _ => simp [state] at keeps
  · rw [if_neg linked] at keeps
    simp only [if_neg linked, keeps]
    have fresh : (host.setSession s ((host.session s).opened
        .initiator)).Lifecycle := by
      refine kept.setSession rfl fun _ => ?_
      exact kept.closed s (.inr (.inr (by simpa using linked)))
    split
    · exact fresh
    rename_i absent
    have opened := fresh.connectChan cfg (d := d) (s := s) mtu unused
      (by simpa using absent)
    rw [init_session] at opened
    simp only [init_session, RfcommSession.withDlcs, setSession_here,
      RfcommSession.opened]
    rw [setSession_here] at opened
    exact opened

theorem Lifecycle.userDisconnect (d : Fin dlcs) :
    (host.userDisconnect d).Lifecycle := by
  unfold RfcommHost.userDisconnect
  split
  · rename_i connected
    rw [if_pos kept.dummy]
    refine kept.setDlc ((kept.sound d).stopped connected (.inr (.inr rfl)) rfl
      rfl rfl rfl) rfl ?_ rfl
    rw [connected]
    exact ⟨fun _ => ⟨nofun, nofun⟩, fun _ => ⟨nofun, nofun⟩⟩
  · by_cases listed : (host.dlc d).state.Listed
    · obtain ⟨s, own⟩ := ne_none_iff_exists'.mp
        ((kept.sound d).session_ne_none listed.1)
      exact kept.dlcClose ((kept.listed s d).mpr ⟨own, listed⟩)
    · unfold RfcommHost.dlcClose
      unfold RfcommState.Listed at listed
      cases state : (host.dlc d).state with
      | idle => simpa only [state] using kept
      | disconnected => simpa only [state] using kept
      | _ => simp [state] at listed

theorem Lifecycle.dlcSend (d : Fin dlcs) (len : Nat) :
    (host.dlcSend d len).Lifecycle := by
  have sound := kept.sound d
  unfold RfcommHost.dlcSend
  split
  · exact kept
  refine kept.setDlc (sound.congr rfl rfl rfl rfl ?_) rfl .rfl rfl
  intro connected
  change none ∉ (host.dlc d).txQueue ++ [some len]
  simpa using (sound.working connected).2

theorem Lifecycle.sessionAccept (s : Fin sessions) :
    (host.sessionAccept s).Lifecycle := by
  unfold RfcommHost.sessionAccept
  split
  · exact kept
  rename_i free
  refine kept.setSession rfl fun _ => ?_
  exact kept.closed s (.inr (.inr (by simpa using free)))

theorem Lifecycle.connected (s : Fin sessions) (rxMtu txMtu : Nat) :
    (host.connected s rxMtu txMtu).Lifecycle := by
  have ready : (host.setSession s ((host.session s).withMtu txMtu
      (min rxMtu txMtu - 4 + 1))).Lifecycle := kept.setSession rfl (kept.closed s)
  unfold RfcommHost.connected
  split
  · exact ready.send s _
  · exact ready

theorem Lifecycle.onChan {handled : RfcommHost sessions dlcs}
    (linked : (host.session s).conn = true → handled.Lifecycle) :
    (host.onChan s handled).Lifecycle := by
  unfold RfcommHost.onChan
  split
  · rename_i conn
    exact linked conn
  · exact kept

theorem Lifecycle.expire {timer : Bool} {expired : RfcommHost sessions dlcs}
    (queued : timer = true → expired.Lifecycle) :
    (if timer then expired else host).Lifecycle := by
  split
  · rename_i runs
    exact queued runs
  · exact kept

theorem Lifecycle.handle {input : RfcommInput sessions dlcs}
    (keeps : host.KeepsLifecycle input) : (host.handle cfg input).Lifecycle := by
  cases input with
  | accept s => exact kept.sessionAccept s
  | connected s rxMtu txMtu =>
    exact kept.onChan fun _ => kept.connected s rxMtu txMtu
  | linkDown s => exact kept.setSession rfl (kept.closed s)
  | disconnected s => exact kept.onChan fun _ => kept.disconnected s keeps
  | recv => exact kept.onChan fun linked => kept.recv linked keeps
  | encryptChange s passed =>
    exact kept.onChan fun _ => kept.encryptChange passed (kept.nodup s)
      fun _ member => member
  | dlcConnect => exact kept.dlcConnect keeps
  | dlcDisconnect d => exact kept.userDisconnect d
  | dlcSend d len => exact kept.dlcSend d len
  | txThread => exact kept.dlcTxThread keeps
  | dlcExpire => exact kept.expire fun _ => kept.retouch rfl rfl rfl rfl rfl rfl
  | dlcTimeout => exact kept.dlcRtxTimeout keeps
  | sessionExpire s => exact kept.expire fun _ => kept.setSession rfl (kept.closed s)
  | sessionTimeout s left => exact kept.sessionRtxTimeout s left keeps
  | dummyPool free =>
    refine kept.of_eq rfl rfl ?_
    rw [kept.world, show free = true from keeps]
    change RfcommWorld.mk host.world.faulted true = _
    rw [kept.world]

end

end RfcommHost

section Decidable

variable (host : RfcommHost sessions dlcs)

instance (s : Fin sessions) (dlci : Nat) (accept : RfcommAccept dlcs) :
    Decidable (host.AcceptKeeps s dlci accept) :=
  inferInstanceAs (Decidable (_ → _ ∨ _))

instance (s : Fin sessions) (dlci : Nat) (accept : RfcommAccept dlcs) :
    Decidable (host.SabmKeeps s dlci accept) :=
  inferInstanceAs (Decidable (_ ∨ (∀ d ∈ host.lookupDlci s dlci,
    (host.dlc d).state.Opening) ∧ _))

instance (s : Fin sessions) (dlci : Nat) :
    Decidable (host.UaKeeps s dlci) := by
  unfold RfcommHost.UaKeeps
  infer_instance

instance (s : Fin sessions) (dlci : Nat) :
    Decidable (host.DmKeeps s dlci) := by
  unfold RfcommHost.DmKeeps
  infer_instance

instance (s : Fin sessions) (dlci : Nat) :
    Decidable (host.DiscKeeps s dlci) := by
  have : Decidable (∀ d ∈ (host.session s).dlcs, ¬host.Lingers d) :=
    List.decidableBAll _ _
  unfold RfcommHost.DiscKeeps
  infer_instance

instance (s : Fin sessions) (env : RfcommEnv dlcs) :
    ∀ frame, Decidable (host.RecvKeeps s env frame)
  | .sabm dlci => inferInstanceAs (Decidable (host.SabmKeeps s dlci env.accept))
  | .ua dlci => inferInstanceAs (Decidable (host.UaKeeps s dlci))
  | .dm dlci => inferInstanceAs (Decidable (host.DmKeeps s dlci))
  | .disc dlci => inferInstanceAs (Decidable (host.DiscKeeps s dlci))
  | .pn _ dlci _ _ _ =>
    inferInstanceAs (Decidable (host.AcceptKeeps s dlci env.accept))
  | .uih .. | .msc .. | .rls .. | .rpn .. | .test .. | .fcon .. | .fcoff .. |
    .other .. => .isTrue trivial

instance (s : Fin sessions) (security : RfcommSecurity) (chan : Bool) :
    Decidable (host.ConnectKeeps s security chan) := by
  unfold RfcommHost.ConnectKeeps
  infer_instance

instance decidableDlcThreadKeeps (d : Fin dlcs) (index : Nat) :
    Decidable (host.ThreadKeeps d index) := by
  unfold RfcommHost.ThreadKeeps
  split <;> infer_instance

instance : ∀ input, Decidable (host.KeepsLifecycle input)
  | .recv s frame env => inferInstanceAs (Decidable (host.RecvKeeps s env frame))
  | .disconnected s => inferInstanceAs (Decidable (∀ d ∈ (host.session s).dlcs,
      ¬host.Lingers d))
  | .dlcConnect _ s _ _ security chan =>
    inferInstanceAs (Decidable (host.ConnectKeeps s security chan))
  | .txThread d index => inferInstanceAs (Decidable (host.ThreadKeeps d index))
  | .dlcTimeout d => inferInstanceAs (Decidable ((host.dlc d).expired = true →
      (host.dlc d).state.Listed ∧ ¬host.Lingers d))
  | .sessionTimeout s _ => inferInstanceAs (Decidable
      ((host.session s).expired = true → (host.session s).state = .disconnecting →
        (host.session s).dlcs = []))
  | .dummyPool free => inferInstanceAs (Decidable (free = true))
  | .accept .. | .connected .. | .linkDown .. | .encryptChange .. |
    .dlcDisconnect .. | .dlcSend .. | .dlcExpire .. | .sessionExpire .. =>
    .isTrue trivial

end Decidable

end ZephyrBluetooth.Host
