import ZephyrBluetooth.Host.L2cap

namespace ZephyrBluetooth.Host

/-! Properties of a connection that the smallest changes preserve: they are
preserved by the commands that are made of such changes. -/

namespace L2capConn

open L2cap

structure Mild (change : LeChan → LeChan) : Prop where
  attached : ∀ chan, (change chan).attached = chan.attached
  connecting : ∀ chan, (change chan).connecting = true → chan.connecting = true
  state : ∀ chan, (change chan).state = .connected → chan.state = .connected
  cid : ∀ chan, (change chan).rx.cid = chan.rx.cid
  tx : ∀ chan, (change chan).tx = chan.tx

theorem mild_rtx (rtx : Bool) : Mild fun chan => { chan with rtx } :=
  ⟨fun _ => rfl, fun _ => id, fun _ => id, fun _ => rfl, fun _ => rfl⟩

theorem mild_expired (expired : Bool) : Mild fun chan => { chan with expired } :=
  ⟨fun _ => rfl, fun _ => id, fun _ => id, fun _ => rfl, fun _ => rfl⟩

theorem mild_ident (ident : Nat) : Mild fun chan => { chan with ident } :=
  ⟨fun _ => rfl, fun _ => id, fun _ => id, fun _ => rfl, fun _ => rfl⟩

theorem mild_encryptPending (encryptPending : Bool) :
    Mild fun chan => { chan with encryptPending } :=
  ⟨fun _ => rfl, fun _ => id, fun _ => id, fun _ => rfl, fun _ => rfl⟩

theorem mild_request {request : L2capRequest}
    (other : request ≠ .leConn ∧ request ≠ .ecredConn) :
    Mild fun chan => { chan with request := some request } :=
  ⟨fun _ => rfl, fun _ held => by simp [LeChan.connecting, other] at held,
    fun _ => id, fun _ => rfl, fun _ => rfl⟩

theorem mild_forget : Mild forgetRequest :=
  ⟨fun _ => rfl, fun _ held => by simp [LeChan.connecting, forgetRequest] at held,
    fun _ => id, fun _ => rfl, fun _ => rfl⟩

theorem mild_reconf (ident mtu : Nat) : Mild (pendReconf ident mtu) :=
  ⟨fun _ => rfl, fun _ => id, fun _ => id, fun _ => rfl, fun _ => rfl⟩

theorem mild_disconnect : Mild fun chan => { chan with state := .disconnect } :=
  ⟨fun _ => rfl, fun _ => id, fun _ => by simp, fun _ => rfl, fun _ => rfl⟩

theorem mild_reconfigured (result : Nat) : Mild (reconfigured result) := by
  refine ⟨fun _ => rfl, ?_, fun _ => id, ?_, fun _ => rfl⟩
  · intro chan held
    simp [LeChan.connecting, reconfigured] at held
  · intro chan
    unfold reconfigured
    split
    · rfl
    · rfl

section Closed

variable {holds : L2capConn → Prop} {conn : L2capConn}

theorem foldl_holds {change : L2capConn → Nat → L2capConn} {addresses : List Nat}
    (each : ∀ conn, ∀ address ∈ addresses, holds conn →
      holds (change conn address)) (here : holds conn) :
    holds (addresses.foldl change conn) := by
  induction addresses generalizing conn with
  | nil => exact here
  | cons address rest ih =>
    apply ih
    · exact fun conn other member =>
        each conn other (List.mem_cons_of_mem _ member)
    · exact each conn address List.mem_cons_self here

theorem leConnReq_holds {config : L2capConfig} {env : L2capEnv}
    {ident psm scid mtu mps credits : Nat} (here : holds conn)
    (accepts : leMinMtu ≤ mps → ∀ server, holds
      (conn.chanAccept config env server 0 scid mtu mps credits).1) :
    holds (conn.leConnReq config env ident psm scid mtu mps credits).1 := by
  unfold leConnReq
  split
  · exact here
  rename_i valid
  split
  · exact here
  split
  · exact here
  split
  · exact here
  exact accepts (Nat.le_of_not_lt (not_or.mp valid).2) _

theorem ecredConnReq_holds {config : L2capConfig} {env : L2capEnv}
    {psm mtu mps credits : Nat} {scids : List Nat} (here : holds conn)
    (accepts : ecredMinMtu ≤ mps → ∀ server,
      conn.serverLookupPsm psm = some server → holds
        (ecredAcceptAll config env server mtu mps credits 0 scids conn).1) :
    holds (conn.ecredConnReq config env psm mtu mps credits scids).1 := by
  unfold ecredConnReq
  split
  · exact here
  split
  · exact here
  rename_i valid
  split
  · exact here
  rename_i server found
  split
  · exact here
  exact accepts (Nat.le_of_not_lt (not_or.mp valid).2) server found

structure Drops (holds : L2capConn → Prop) : Prop where
  cancel : ∀ {conn} address, holds conn → holds (conn.set address cancelRtx)
  drop : ∀ {conn} address, holds conn →
    holds ((conn.chanRemove address).chanDel address)
  halt : ∀ {conn}, holds conn → holds { conn with halted := true }

variable {conn : L2capConn}

namespace Drops

variable (drops : Drops holds)
include drops

theorem dropIdent (ident fuel : Nat) (here : holds conn) :
    holds (L2capConn.dropIdent ident fuel conn) := by
  induction fuel generalizing conn with
  | zero => exact here
  | succ fuel ih =>
    unfold L2capConn.dropIdent
    split
    · exact here
    · exact ih (drops.drop _ here)

theorem rtxTimeout (here : holds conn) (address : Nat) :
    holds (conn.rtxTimeout address) := by
  have fired := drops.cancel address here
  unfold L2capConn.rtxTimeout
  split
  · exact drops.dropIdent _ _ (drops.drop address fired)
  · exact drops.halt fired

theorem disconnRsp (here : holds conn) (scid : Nat) :
    holds (conn.disconnRsp scid) := by
  unfold L2capConn.disconnRsp
  split
  · exact here
  · exact drops.drop _ here

end Drops

structure Closed (holds : L2capConn → Prop) : Prop extends Drops holds where
  set : ∀ {conn change} address, Mild change → holds conn →
    holds (conn.set address change)
  getIdent : ∀ {conn}, holds conn → holds conn.getIdent

namespace Closed

variable (closed : Closed holds)
include closed

section

variable (here : holds conn)
include here

theorem setIdent (ident address : Nat) : holds (conn.setIdent ident address) :=
  closed.set address (mild_ident ident) here

section

variable (env : L2capEnv)
include env

theorem chanSendReq (ident address : Nat) :
    holds (conn.chanSendReq env ident address) := by
  unfold L2capConn.chanSendReq
  split
  · exact closed.set address (mild_rtx true) here
  · exact here

theorem noteRequest (ident : Nat) {request : L2capRequest}
    (other : request ≠ .leConn ∧ request ≠ .ecredConn) (address : Nat) :
    holds (conn.noteRequest env ident request address) := by
  unfold L2capConn.noteRequest
  split
  · exact closed.set address (mild_request other) here
  · exact here

theorem chanDisconnect (address : Nat) :
    holds (conn.chanDisconnect env address) := by
  unfold L2capConn.chanDisconnect
  split
  · have drawn := closed.setIdent (closed.getIdent here) conn.nextIdent address
    simp only
    split
    · have noted := closed.noteRequest drawn env conn.nextIdent
        (by decide : L2capRequest.disconn ≠ .leConn ∧ _) address
      exact closed.set address mild_disconnect
        (closed.chanSendReq noted env conn.nextIdent address)
    · exact drawn
  · exact here

theorem ecredChanReconfigure (chans : List Nat) (mtu : Nat) :
    holds (conn.ecredChanReconfigure env chans mtu) := by
  have numbered : ∀ (ident : Nat) (addresses : List Nat),
      holds (addresses.foldl (fun conn address => conn.set address
        (pendReconf ident mtu)) conn.getIdent) := fun ident _ =>
    foldl_holds (fun _ address _ here =>
      closed.set address (mild_reconf ident mtu) here) (closed.getIdent here)
  unfold L2capConn.ecredChanReconfigure
  split
  · exact here
  split
  · exact here
  split
  · exact here
  simp only
  split
  · split
    · apply closed.chanSendReq
      exact foldl_holds (fun _ address _ here =>
        closed.noteRequest here env _ (by decide) address) (numbered _ _)
    · exact closed.halt (numbered _ _)
  · exact closed.getIdent here

end

theorem ecredReconfReq
    (sizes : ∀ {conn} (address mtu mps : Nat), holds conn →
      holds (conn.set address fun chan =>
      { chan with tx := { chan.tx with mtu, mps } }))
    (env : L2capEnv) (ident mtu mps : Nat) (scids : List Nat) :
    holds (conn.ecredReconfReq env ident mtu mps scids) := by
  unfold L2capConn.ecredReconfReq
  generalize changes : (if mps < ecredMinMtu ∨ mtu < ecredMinMtu then conn
    else _ : L2capConn) = resized
  have targets : holds resized := by
    rw [← changes]
    split
    · exact here
    split
    · exact here
    split
    · exact here
    · exact foldl_holds (fun _ address _ here => sizes address mtu mps here) here
  split
  · exact targets
  · exact closed.halt targets

theorem changeSecurity (env : L2capEnv) (address err : Nat) :
    holds (conn.changeSecurity env address err).1 := by
  unfold L2capConn.changeSecurity
  split
  · exact closed.set address (mild_encryptPending true) here
  · exact here

theorem answered (ident : Nat) : holds (conn.answered ident) := by
  refine foldl_holds ?_ here
  intro conn address _ here
  split
  · exact closed.set address mild_forget here
  · exact here

end

theorem ecredSecure (env : L2capEnv) (ident result fuel : Nat) (here : holds conn) :
    holds (L2capConn.ecredSecure env ident result fuel conn) := by
  induction fuel generalizing conn with
  | zero => exact here
  | succ fuel ih =>
    unfold L2capConn.ecredSecure
    split
    · exact here
    rename_i address _
    have secured := closed.changeSecurity (closed.cancel address here) env
      address result
    simp only
    split
    · rename_i pending change
      rw [change] at secured
      exact closed.answered secured ident
    · rename_i refused change
      rw [change] at secured
      exact ih (closed.drop address secured)

theorem reconfDone (ident result fuel : Nat) (here : holds conn) :
    holds (L2capConn.reconfDone ident result fuel conn) := by
  induction fuel generalizing conn with
  | zero => exact here
  | succ fuel ih =>
    unfold L2capConn.reconfDone
    split
    · exact here
    · exact ih (closed.set _ (mild_reconfigured result) here)

theorem leCredits (here : holds conn)
    (gives : ∀ {conn} (address credits : Nat), holds conn →
      holds (conn.set address (giveTxCredits credits)))
    (env : L2capEnv) (cid credits : Nat) :
    holds (conn.leCredits env cid credits) := by
  unfold L2capConn.leCredits
  split
  · exact here
  split
  · exact closed.chanDisconnect here env _
  · exact gives _ _ here

theorem rejectCmd (here : holds conn) (ident : Nat) :
    holds (conn.rejectCmd ident) := by
  unfold L2capConn.rejectCmd
  split
  · exact here
  · exact closed.drop _ (closed.answered here ident)

end Closed

structure ClosedFully (holds : L2capConn → Prop) : Prop extends
    Closed holds where
  request : ∀ {conn} address request, holds conn →
    holds (conn.set address fun chan => { chan with request := some request })
  remove : ∀ {conn} address, holds conn → holds (conn.chanRemove address)

namespace ClosedFully

variable (closed : ClosedFully holds)
include closed

theorem noteAny (here : holds conn) (env : L2capEnv) (ident : Nat)
    (request : L2capRequest) (address : Nat) :
    holds (conn.noteRequest env ident request address) := by
  unfold L2capConn.noteRequest
  split
  · exact closed.request address request here
  · exact here

theorem leConnReqSend (here : holds conn) (env : L2capEnv) (address : Nat) :
    holds (conn.leConnReqSend env address).1 := by
  have drawn := closed.setIdent (closed.getIdent here) conn.nextIdent address
  unfold L2capConn.leConnReqSend
  simp only
  split
  · exact closed.chanSendReq (closed.noteAny drawn env _ _ _) env _ _
  · exact drawn

theorem ecredConnReqSend (here : holds conn) (env : L2capEnv)
    (addresses : List Nat) : holds (conn.ecredConnReqSend env addresses) := by
  cases addresses with
  | nil => exact here
  | cons =>
    unfold L2capConn.ecredConnReqSend
    simp only
    split
    · apply closed.chanSendReq
      refine foldl_holds (fun _ address _ here =>
        closed.noteAny here env _ _ address) ?_
      exact foldl_holds (fun _ address _ here =>
        closed.setIdent here _ address) (closed.getIdent here)
    · exact closed.halt (closed.getIdent here)

theorem unlinkIdent (ident fuel : Nat)
    (here : holds conn) : holds (L2capConn.unlinkIdent ident fuel conn).1 := by
  induction fuel generalizing conn with
  | zero => exact here
  | succ fuel ih =>
    unfold L2capConn.unlinkIdent
    split
    · exact here
    · exact ih (closed.remove _ here)

theorem encryptChange (here : holds conn) (env : L2capEnv) (failed : Bool)
    (address : Nat) : holds (conn.encryptChange env failed address) := by
  have cleared := closed.set address (mild_encryptPending false) here
  unfold L2capConn.encryptChange
  split
  · exact here
  simp only
  split
  · exact closed.drop address cleared
  split
  · exact closed.ecredConnReqSend (closed.unlinkIdent _ _ cleared) env _
  have sent := closed.leConnReqSend cleared env address
  split
  · rename_i result request
    rw [request] at sent
    exact sent
  · rename_i result request
    rw [request] at sent
    exact closed.drop address sent

theorem securityLoop (env : L2capEnv) (failed : Bool) (fuel : Nat)
    {current : Option Nat} (here : holds conn) :
    holds (L2capConn.securityLoop env failed fuel current conn) := by
  induction fuel generalizing current conn with
  | zero => exact here
  | succ fuel ih =>
    cases current with
    | none => exact here
    | some address => exact ih (closed.encryptChange here env failed address)

theorem disconnReq (here : holds conn) (env : L2capEnv) (ident dcid : Nat) :
    holds (conn.disconnReq env ident dcid) := by
  unfold L2capConn.disconnReq
  split
  · exact here
  split
  · exact closed.drop _ here
  · exact closed.remove _ here

end ClosedFully

end Closed

end L2capConn

end ZephyrBluetooth.Host
