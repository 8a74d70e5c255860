import FpgaProgrammer.Proofs.Calls.Script

/-!
# What is seen in the scans of a run

Some programs make the same calls whatever the device is, and all that they bring back is in their
scans. A `view` says what is to be seen in a scan that has succeeded, given what the host holds of
it.

* `Host.seen`: what is seen in the scans of a run, in order.
* `Host.Sees`: every run of a program makes the calls of a script, and its value is as said of what
  is seen; or the cable fails in the midst of the script, and that is what the run ends with.
  `Sees.bind` puts such programs together.
* `Sees.works`: over a cable that works, the script is carried out.
-/

namespace FpgaProgrammer

/-- A scan that has succeeded, and what the host holds of it. -/
def Exchange.scanned? : Exchange Request Request.Answer → Option (Scan × Bytes)
  | ⟨.cable (.shiftDr scan), reply⟩ =>
    match (reply : Except Error Bytes) with
    | .ok captured => some (scan, scan.receive captured)
    | .error _ => none
  | _ => none

namespace Host

variable {α β γ : Type} {view : Scan → Bytes → Option γ}
  {exchanges : List (Exchange Request Request.Answer)} {calls first second : List CableCall}

/-- What is seen in the scans, in order. -/
def seen (view : Scan → Bytes → Option γ) (exchanges : List (Exchange Request Request.Answer)) :
    List γ :=
  exchanges.filterMap fun exchange => do
    let (scan, received) ← Exchange.scanned? exchange
    view scan received

/-- The view in which nothing is to be seen. -/
def blind (_ : Scan) (_ : Bytes) : Option Unit :=
  none

@[simp]
theorem seen_append (view : Scan → Bytes → Option γ)
    (before after : List (Exchange Request Request.Answer)) :
    seen view (before ++ after) = seen view before ++ seen view after :=
  List.filterMap_append

/-- Where the cable is not called, nothing is seen. -/
theorem seen_of_silent (h : ∀ exchange ∈ exchanges, exchange.1.isCall = false) :
    seen view exchanges = [] := by
  refine List.filterMap_eq_nil_iff.mpr fun exchange hmem => ?_
  have hsilent := h exchange hmem
  obtain ⟨request, answer⟩ := exchange
  cases request with
  | cable call => cases hsilent
  | _ => rfl

/-- Every run of the program makes these calls and succeeds, and its value is as said of what is
seen in its scans. If the cable fails, the run ends there with that failure. -/
def Sees (view : Scan → Bytes → Option γ) (program : Host α) (calls : List CableCall)
    (post : (seen : List γ) → α → Prop) : Prop :=
  ∀ ⦃exchanges result⦄, Runs program exchanges result →
    (callsOf exchanges = calls ∧ (∀ exchange ∈ exchanges, Exchange.failure? exchange = none) ∧
      ∃ value, result = .ok value ∧ post (seen view exchanges) value) ∨
    (callsOf exchanges <+: calls ∧ ∃ error, result = .error error ∧
      ∃ exchange ∈ exchanges, Exchange.failure? exchange = some error)

/-- Over a cable that works, the calls are made and the program succeeds. -/
theorem Sees.works {program : Host α} {post : List γ → α → Prop} {result : Except Error α}
    (h : Sees view program calls post) (hruns : Runs program exchanges result)
    (hworks : ∀ exchange ∈ exchanges, Exchange.failure? exchange = none) :
    callsOf exchanges = calls ∧
      ∃ value, result = .ok value ∧ post (seen view exchanges) value := by
  rcases h hruns with ⟨hcalls, -, hvalue⟩ | ⟨-, error, -, exchange, hmem, hfailed⟩
  · exact ⟨hcalls, hvalue⟩
  · cases (hworks exchange hmem).symm.trans hfailed

/-- A program that succeeds has made the calls, and none of them has failed. -/
theorem Sees.of_ok {program : Host α} {post : List γ → α → Prop} {value : α}
    (h : Sees view program calls post) (hruns : Runs program exchanges (.ok value)) :
    callsOf exchanges = calls ∧ (∀ exchange ∈ exchanges, Exchange.failure? exchange = none) ∧
      post (seen view exchanges) value := by
  rcases h hruns with ⟨hcalls, hworks, _, ⟨⟩, hpost⟩ | ⟨-, _, ⟨⟩, -⟩
  exact ⟨hcalls, hworks, hpost⟩

/-- A program that fails has made some of the calls, and the cable has failed so. -/
theorem Sees.of_error {program : Host α} {post : List γ → α → Prop} {error : Error}
    (h : Sees view program calls post) (hruns : Runs program exchanges (.error error)) :
    callsOf exchanges <+: calls ∧
      ∃ exchange ∈ exchanges, Exchange.failure? exchange = some error := by
  rcases h hruns with ⟨-, -, _, ⟨⟩, -⟩ | ⟨hcalls, _, ⟨⟩, hfailed⟩
  exact ⟨hcalls, hfailed⟩

/-- The calls of a sequence, and what is seen in it, are those of its parts. -/
theorem Sees.bind {program : Host α} {next : α → Host β} {post : List γ → α → Prop}
    {post' : List γ → β → Prop} (h : Sees view program first post)
    (hnext : ∀ seen value, post seen value →
      Sees view (next value) second fun seen' => post' (seen ++ seen')) :
    Sees view (program >>= next) (first ++ second) post' := by
  intro exchanges result hruns
  rcases runs_bind_iff.mp hruns with
    ⟨value, before, after, rfl, hbefore, hafter⟩ | ⟨error, rfl, hfailed⟩
  · -- The first part has succeeded, so a failure is one of the second part.
    obtain ⟨hcalls, hworks, hpost⟩ := h.of_ok hbefore
    rw [callsOf_append, hcalls, seen_append]
    rcases hnext _ _ hpost hafter with
      ⟨hcalls', hworks', hvalue⟩ | ⟨hcalls', error, rfl, exchange, hmem, hfailed⟩
    · exact .inl ⟨by rw [hcalls'], List.forall_mem_append.mpr ⟨hworks, hworks'⟩, hvalue⟩
    · exact .inr ⟨(List.prefix_append_right_inj _).mpr hcalls', error, rfl, exchange,
        List.mem_append_right _ hmem, hfailed⟩
  · obtain ⟨hcalls, hcable⟩ := h.of_error hfailed
    exact .inr ⟨hcalls.trans (List.prefix_append ..), error, rfl, hcable⟩

theorem sees_pure {post : List γ → α → Prop} {value : α} (h : post [] value) :
    Sees view (pure value) [] post := by
  intro exchanges result hruns
  obtain ⟨rfl, rfl⟩ := runs_pure_iff.mp hruns
  exact .inl ⟨rfl, by simp, value, rfl, h⟩

/-- A value that is made of another one is made without a call. -/
theorem Sees.bind_pure {program : Host α} {make : α → β} {post : List γ → α → Prop}
    {post' : List γ → β → Prop} (h : Sees view program calls post)
    (himp : ∀ seen value, post seen value → post' seen (make value)) :
    Sees view (program >>= fun value => pure (make value)) calls post' := by
  rw [← List.append_nil calls]
  refine h.bind fun seen value hpost => sees_pure ?_
  rw [List.append_nil]
  exact himp seen value hpost

/-! ## Calls -/

/-- A program that is one call of the cable, and ends as the call does. In a call that is no scan,
nothing is seen. -/
theorem sees_of_runs {program : Host α} {call : CableCall}
    (hruns : ∀ {exchanges result}, Runs program exchanges result →
      ∃ reply, exchanges = [⟨.cable call, reply⟩] ∧ call.failure? reply = failure? result)
    (hblind : ∀ reply, Exchange.scanned? ⟨.cable call, reply⟩ = none) :
    Sees view program [call] fun seen _ => seen = [] := by
  intro exchanges result h
  obtain ⟨reply, rfl, hreply⟩ := hruns h
  cases result with
  | ok value =>
    refine .inl ⟨rfl, List.forall_mem_singleton.mpr hreply, value, rfl, ?_⟩
    rw [seen, List.filterMap_cons, hblind]
    rfl
  | error error => exact .inr ⟨List.prefix_rfl, error, rfl, _, List.mem_cons_self, hreply⟩

/-- Nothing is captured, and so nothing seen, in a shift of the instruction register. -/
theorem sees_shiftIr (data : Bytes) (bits : Nat) :
    Sees view (shiftIr data bits) [.shiftIr data bits] fun seen _ => seen = [] :=
  sees_of_runs (fun h => ⟨_, Dialogue.runs_put_iff.mp h, rfl⟩) fun _ => rfl

theorem sees_setState (state : TapState) :
    Sees view (setState state) [.setState state] fun seen _ => seen = [] :=
  sees_of_runs (fun h => ⟨_, Dialogue.runs_put_iff.mp h, rfl⟩) fun _ => rfl

theorem sees_toggleClock (cycles : UInt32) :
    Sees view (toggleClock cycles) [.toggleClock cycles] fun seen _ => seen = [] :=
  sees_of_runs (fun h => ⟨_, Dialogue.runs_put_iff.mp h, rfl⟩) fun _ => rfl

theorem sees_flush : Sees view flush [.flush] fun seen _ => seen = [] :=
  sees_of_runs (fun h => ⟨_, Dialogue.runs_put_iff.mp h, rfl⟩) fun _ => rfl

/-- What is seen in a scan is seen in what the host holds of it. -/
theorem sees_shiftDr (scan : Scan) :
    Sees view (shiftDr scan) [.shiftDr scan] fun seen received =>
      seen = (view scan received).toList := by
  intro exchanges result hruns
  obtain ⟨first, reply, second, rfl, hcall, hrest⟩ := Dialogue.runs_bind_iff.mp hruns
  obtain rfl := Dialogue.runs_put_iff.mp hcall
  cases reply with
  | error error =>
    obtain ⟨rfl, rfl⟩ := Dialogue.runs_done_iff.mp hrest
    exact .inr ⟨List.prefix_rfl, error, rfl, _, List.mem_cons_self, rfl⟩
  | ok captured =>
    obtain ⟨rfl, rfl⟩ := Dialogue.runs_done_iff.mp hrest
    refine .inl ⟨rfl, List.forall_mem_singleton.mpr rfl, _, rfl, ?_⟩
    show List.filterMap _ [_] = _
    cases hview : view scan (scan.receive captured) <;> simp [Exchange.scanned?, hview]

/-- Two calls in which nothing is seen. -/
theorem sees_send (instruction : Instruction) :
    Sees view (Device.send instruction) (sendCalls instruction) fun seen _ => seen = [] := by
  refine (sees_shiftIr _ _).bind fun _ _ hnone => ?_
  rw [hnone]
  exact sees_toggleClock _

/-- The calls of a look at the status, whatever is seen in it. -/
theorem sees_readStatus : Sees view Device.readStatus lookCalls fun _ _ => True := by
  have hregister : Sees view (Device.readRegister Instruction.readStatus.opcode) lookCalls
      fun _ _ => True :=
    (sees_send .readStatus).bind fun _ _ _ =>
      (sees_shiftDr registerScan).bind_pure fun _ _ _ => trivial
  exact hregister.bind_pure fun _ _ _ => trivial

end Host

end FpgaProgrammer
