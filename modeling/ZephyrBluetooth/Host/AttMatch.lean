import ZephyrBluetooth.Host.AttRequests

namespace ZephyrBluetooth.Host

open Data List

/-- A callback without an error is about the answer to its request, received
on the bearer of the request. -/
def AttLinkOutput.Matched : AttLinkOutput → Prop
  | .callback _ ask err bearer rx => err = 0 → rx = some (bearer, ask.answer.code)
  | _ => True

namespace AttLink

variable {link : AttLink} {flags : AttFlags} {attempts : Attempts}

/-- A received PDU that ends the outstanding request without an error is the
answer to that request. -/
def Matching (flags : AttFlags) (link : AttLink) : AttLinkInput → Prop
  | .recv index data _ _ =>
    ∀ bearer req, link.find index = some bearer → bearer.slot = .own req →
      completes flags data = true →
      data.head? = some req.ask.answer.code
  | _ => True

theorem ended_matched_iff (bearer : AttBearer) (err : Nat)
    (rx : Option (Nat × Byte)) :
    (∀ output ∈ ended bearer err rx, output.Matched) ↔
      ∀ req, bearer.slot = .own req → err = 0 →
        rx = some (bearer.index, req.ask.answer.code) := by
  unfold ended
  cases slot : bearer.slot with
  | idle => simp
  | cancelled => simp
  | own => simp [AttLinkOutput.Matched]

theorem ended_matched (bearer : AttBearer) {err : Nat}
    (failed : err ≠ 0) (rx : Option (Nat × Byte)) :
    ∀ output ∈ ended bearer err rx, output.Matched := by
  rw [ended_matched_iff]
  intro req slot none
  exact absurd none failed

theorem reset_matched (link : AttLink) :
    ∀ output ∈ link.reset.2, output.Matched := by
  intro output member
  obtain ⟨_, _, told⟩ := mem_flatMap.mp member
  simp only [mem_cons, not_mem_nil, or_false] at told
  rcases told with rfl | rfl
  · intro none
    cases none
  · trivial

theorem call_matched (link : AttLink) (found : Bool) (request : AttReqCall) :
    ∀ output ∈ (link.call found request).2, output.Matched := by
  cases found with
  | false => cases request <;> simp [call]
  | true =>
    cases request with
    | send => simp [call, btAttReqSend, AttLinkOutput.Matched]
    | cancel =>
      simp only [call, btAttReqCancel, if_true]
      split <;> simp [AttLinkOutput.Matched]

theorem calls_matched (found : Bool) (link : AttLink) (nested : List AttReqCall) :
    ∀ output ∈ (link.calls found nested).2, output.Matched := by
  induction nested generalizing link with
  | nil => simp [calls]
  | cons request rest ih =>
    simp only [calls, forall_mem_append]
    exact ⟨call_matched link found request, ih _⟩

theorem onEncryptChange_matched (link : AttLink) (attempts : Attempts)
    (index hciStatus secLevel : Nat) (built : Bool) :
    ∀ output ∈ (link.onEncryptChange attempts index hciStatus secLevel built).2,
      output.Matched := by
  rcases onEncryptChange_cases link attempts index hciStatus secLevel built with
    same | ⟨bearer, req, next, _, _, _, same⟩ | ⟨bearer, err, _, fails, same⟩
  · simp [same]
  · simp [same]
  · rw [same]
    exact ended_matched bearer fails none

theorem onDisconnected_matched (link : AttLink) (attempts : Attempts)
    (index : Nat) (nested : List AttReqCall) :
    ∀ output ∈ (link.onDisconnected attempts index nested).2, output.Matched := by
  unfold onDisconnected
  cases found : link.find index with
  | none => simp
  | some bearer =>
    have detached : ∀ output ∈ (link.chanDetach attempts bearer nested).2,
        output.Matched := by
      unfold chanDetach
      cases slot : bearer.slot with
      | idle => simp
      | cancelled => simp
      | own =>
        simp only [forall_mem_append]
        exact ⟨ended_matched bearer (by decide) none, calls_matched _ _ nested⟩
    simp only
    split
    · rw [forall_mem_append]
      exact ⟨detached, reset_matched _⟩
    · exact detached

theorem onRecv_matched_iff (index : Nat) (data : List Byte) (elevated : Bool) :
    (∀ output ∈ (link.onRecv flags attempts index data elevated).2,
        output.Matched) ↔
      link.Matching flags (.recv index data elevated attempts) := by
  rcases onRecv_cases link flags attempts index data elevated with
    ⟨same, silent⟩ | ⟨bearer, req, found, slot, same, silent⟩ |
      ⟨bearer, code, payload, err, found, rfl, same, exactly⟩
  · rw [same]
    refine ⟨fun _ bearer req found slot completed => ?_, by simp⟩
    rw [silent bearer req found slot] at completed
    cases completed
  · rw [same]
    refine ⟨fun _ bearer req found slot completed => ?_, by simp⟩
    rw [silent] at completed
    cases completed
  · have here : bearer.index = index := by
      simpa using find?_some found
    rw [same]
    show (∀ output ∈ ended bearer err (some (index, code)), output.Matched) ↔ _
    rw [ended_matched_iff, here]
    constructor
    · intro matched other req also slot completed
      cases found.symm.trans also
      have answered := matched req slot ((exactly req slot).mpr completed)
      cases answered
      rfl
    · intro matching req slot none
      have answered := matching bearer req found slot ((exactly req slot).mp none)
      cases answered
      rfl

theorem step_matched_iff (flags : AttFlags) (link : AttLink)
    (input : AttLinkInput) :
    (∀ output ∈ (attLinkMachine flags).emit link input, output.Matched) ↔
      link.Matching flags input := by
  show (∀ output ∈ (link.step flags input).2, output.Matched) ↔ _
  cases input with
  | recv index data elevated => exact onRecv_matched_iff index data elevated
  | call request => exact iff_of_true (call_matched link _ request) trivial
  | encryptChange index hciStatus secLevel built attempts =>
    exact iff_of_true (onEncryptChange_matched link attempts index hciStatus
      secLevel built) trivial
  | timeout index attempts nested =>
    exact iff_of_true (onDisconnected_matched link attempts index nested) trivial
  | disconnected index attempts nested =>
    exact iff_of_true (onDisconnected_matched link attempts index nested) trivial
  | connect => simp [step, Matching]
  | sendOther => simp [step, Matching]
  | sent => simp [step, Matching]
  | status => simp [step, Matching]
  | connDown => simp [step, Matching]

end AttLink

/-- In a run every callback without an error is about the answer to its request
exactly when every PDU that completes a request answers it. -/
theorem att_responses_matched_iff (flags : AttFlags)
    (inputs : List AttLinkInput) :
    (∀ output ∈ (attLinkMachine flags).trace AttLink.start inputs, output.Matched) ↔
      (attLinkMachine flags).Along (AttLink.Matching flags) AttLink.start
        inputs := by
  exact Machine.trace_iff_along (AttLink.step_matched_iff flags) _ inputs

theorem att_write_response_ends_read :
    ¬ ∀ (flags : AttFlags) (inputs : List AttLinkInput),
      ∀ output ∈ (attLinkMachine flags).trace AttLink.start inputs,
        output.Matched := by
  intro matched
  have ended := matched ⟨true, false, false, false, false, false⟩
    [.call (.send sampleRead false fun _ => .taken),
      .recv 0 [AttOp.writeRsp.code] false fun _ => .taken]
    (.callback 0 sampleRead 0 0 (some (0, AttOp.writeRsp.code))) (by decide) rfl
  revert ended
  decide

end ZephyrBluetooth.Host
