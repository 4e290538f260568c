import DataPipe.Flow.Runner

/-!
# Terminal outcomes

Which of the four terminal outcomes the effects of one handled datagram amount
to, and exactly when there is one.
-/

set_option linter.dupNamespace false

namespace DataPipe.Flow

open DataPipe.Foundation

inductive Outcome where
  | success
  | errorPort
  | deadLettered
  | stored
  deriving DecidableEq, Repr

namespace Effect

def delivered : Effect → Bool
  | .send _ _ (.error _) => false
  | .noSuchPort _ => false
  | _ => true

def reportedAs : Effect → Option Outcome
  | .nodeEvent call =>
    match call.onError with
    | .none => some .success
    | .errorPort => some .errorPort
    | _ => none
  | _ => none

def settledAs : Effect → Option Outcome
  | .capture _ _ _ _ _ => some .deadLettered
  | .enqueue _ true => some .stored
  | _ => none

end Effect

/--
A success and a routed error count once their datagrams were delivered; a dead
letter counts once captured, a stored datagram once the queue keeps it.
-/
def outcomes (effects : List Effect) : List Outcome :=
  (if effects.all Effect.delivered then
    effects.filterMap Effect.reportedAs else []) ++
    effects.filterMap Effect.settledAs

namespace World

def lastAttempt (w : World) : Nat → Nat → Nat
  | 0, attempt => attempt
  | left + 1, attempt =>
    if (w.invoke attempt).isOk then attempt
    else w.lastAttempt left (attempt + 1)

def undisturbed (w : World) (first last : Nat) : Bool :=
  (List.range' first (last - first)).all fun attempt => !w.cancelled attempt

/-- A successful `Enqueue` has not dropped its own entry again. -/
def keepsEntry (w : World) (port : String) (input : Datagram) : Bool :=
  match w.sfQueue with
  | none => true
  | some s =>
    match w.marshal port input with
    | none => true
    | some data =>
      match s.enqueue data w.enqueuedAt w.diskAnswer with
      | none => true
      | some (_, kept) => kept

end World

namespace NodeRunner

def delivers (r : NodeRunner) (w : World) :
    Nat → List PortDatagram → Bool
  | _, [] => true
  | index, result :: results =>
    decide (result.port ∈ r.outputs) && (w.send index).isOk && r.delivers w (index + 1) results

def terminalSettles (r : NodeRunner) (w : World) (port : String) (input : Datagram) : Bool :=
  match r.onError with
  | .errorPort => !decide ("error" ∈ r.outputs) || (w.send 0).isOk
  | .storeForward => w.keepsEntry port input
  | _ => true

def attemptSettles (r : NodeRunner) (w : World) (port : String)
    (input : Datagram) (attempt : Nat) : Bool :=
  match w.invoke attempt with
  | .ok results => r.delivers w 0 results
  | .error _ => r.terminalSettles w port input

def retriesAllowed (r : NodeRunner) : Nat :=
  if r.onError = .retry then r.maxRetries else 0

/--
A datagram settles when it has expired, or when no wait of the retry loop is
cancelled and the attempt that ends the loop disposes of what it holds.
-/
def settles (r : NodeRunner) (w : World) (port : String) (input : Datagram) : Bool :=
  let last := w.lastAttempt r.retriesAllowed 1
  input.header.expired w.received || (w.undisturbed 1 last && r.attemptSettles w port input last)

variable (r : NodeRunner) (w : World) (port : String) (input : Datagram)

theorem all_delivered_dispatch (index : Nat) (results : List PortDatagram) :
    (r.dispatch w index results).all Effect.delivered =
      r.delivers w index results := by
  induction results generalizing index with
  | nil => rfl
  | cons result results ih =>
    rw [dispatch, List.all_cons, ih]
    congr 1
    by_cases hport : result.port ∈ r.outputs
    · cases hsend : w.send index <;>
        simp [hport, Effect.delivered, Except.toBool]
    · simp [hport, Effect.delivered]

theorem filterMap_dispatch {f : Effect → Option Outcome}
    (hsend : ∀ port datagram result, f (.send port datagram result) = none)
    (hport : ∀ port, f (.noSuchPort port) = none) (index : Nat) (results : List PortDatagram) :
    (r.dispatch w index results).filterMap f = [] := by
  induction results generalizing index with
  | nil => rfl
  | cons result results ih =>
    rw [dispatch, List.filterMap_cons, ih]
    by_cases hmem : result.port ∈ r.outputs
    · rw [if_pos hmem, hsend]
    · rw [if_neg hmem, hport]

theorem outcomes_success (attempt : Nat) (results : List PortDatagram) :
    (outcomes (r.dispatch w 0 results ++
      r.reportNode w input port attempt results none .none)).length =
      (r.delivers w 0 results).toNat := by
  have hreported := r.filterMap_dispatch w (f := Effect.reportedAs)
    (fun _ _ _ => rfl) (fun _ => rfl) 0 results
  have hsettled := r.filterMap_dispatch w (f := Effect.settledAs)
    (fun _ _ _ => rfl) (fun _ => rfl) 0 results
  unfold outcomes
  rw [List.all_append, all_delivered_dispatch, List.filterMap_append,
    List.filterMap_append, hreported, hsettled]
  cases r.delivers w 0 results <;>
    simp [reportNode, Effect.delivered, Effect.reportedAs, Effect.settledAs]

theorem outcomes_fail (attempt : Nat) (err : NodeError) :
    outcomes (r.reportNode w input port attempt [] (some err) .fail) =
      [.deadLettered] := by
  unfold reportNode
  cases w.errorFlowTarget with
  | none => rfl
  | some target =>
    dsimp only
    rw [if_pos (.inl rfl)]
    split
    · rfl
    · rfl

theorem outcomes_discard (attempt : Nat) (err : NodeError) :
    outcomes (r.reportNode w input port attempt [] (some err) .discard) =
      [.deadLettered] := by
  unfold reportNode
  cases w.errorFlowTarget with
  | none | some => rfl

theorem outcomes_errorPort (attempt : Nat) (errDgm : Datagram)
    (err : NodeError) (result : Except Bus.WireError Unit) :
    (outcomes (.send "error" errDgm result ::
      r.reportNode w input port attempt [⟨"error", errDgm⟩] (some err)
        .errorPort)).length = result.isOk.toNat := by
  unfold reportNode
  cases w.errorFlowTarget <;> cases result <;> rfl

theorem outcomes_stored (attempt : Nat) (id : StoreForward.Name) (kept : Bool) (err : NodeError) :
    (outcomes (.enqueue id kept ::
      r.reportNode w input port attempt [] (some err) .storeForward)).length =
      kept.toNat := by
  unfold reportNode
  cases w.errorFlowTarget <;> cases kept <;> rfl

theorem outcomes_storeForward (attempt : Nat) (err : NodeError) :
    (outcomes (r.storeForward w port attempt input err)).length =
      (w.keepsEntry port input).toNat := by
  have hfail := congrArg List.length (r.outcomes_fail w port input attempt err)
  unfold storeForward World.keepsEntry
  cases w.sfQueue with
  | none => exact hfail
  | some s =>
    cases w.marshal port input with
    | none => exact hfail
    | some data =>
      dsimp only
      cases s.enqueue data w.enqueuedAt w.diskAnswer with
      | none => exact hfail
      | some result => exact r.outcomes_stored w port input attempt result.1 result.2 err

theorem outcomes_terminal (attempt : Nat) (err : NodeError) (hretry : r.onError ≠ .retry) :
    (outcomes (r.applyTerminalPolicy w port attempt input err)).length =
      (r.terminalSettles w port input).toNat := by
  have hfail := congrArg List.length (r.outcomes_fail w port input attempt err)
  unfold applyTerminalPolicy terminalSettles
  cases honError : r.onError with
  | none | fail => exact hfail
  | retry => exact absurd honError hretry
  | errorPort =>
    by_cases hport : "error" ∈ r.outputs
    · simp only [if_pos hport]
      rw [r.outcomes_errorPort]
      simp [hport]
    · simpa [hport] using hfail
  | discard => exact congrArg List.length (r.outcomes_discard w port input attempt err)
  | storeForward => exact r.outcomes_storeForward w port input attempt err

theorem le_lastAttempt (left attempt : Nat) : attempt ≤ w.lastAttempt left attempt := by
  induction left generalizing attempt with
  | zero => exact Nat.le_refl _
  | succ left ih =>
    rw [World.lastAttempt]
    split
    · exact Nat.le_refl _
    · exact (Nat.le_succ attempt).trans (ih (attempt + 1))

theorem undisturbed_self (attempt : Nat) : w.undisturbed attempt attempt := by
  simp [World.undisturbed]

theorem undisturbed_succ {first last : Nat} (hlt : first < last) :
    w.undisturbed first last =
      (!w.cancelled first && w.undisturbed (first + 1) last) := by
  unfold World.undisturbed
  rw [show last - first = (last - (first + 1)) + 1 by omega, List.range'_succ, List.all_cons]

theorem outcomes_handleLoop_of_ok {attempt : Nat} {results : List PortDatagram}
    (hinvoke : w.invoke attempt = .ok results) (left : Nat) :
    (outcomes (r.handleLoop w port input left attempt)).length =
      (r.attemptSettles w port input attempt).toNat := by
  have hsuccess := r.outcomes_success w port input attempt results
  unfold handleLoop attemptSettles
  rw [hinvoke]
  exact hsuccess

theorem outcomes_handleLoop_once (hretry : r.onError ≠ .retry) (left attempt : Nat) :
    (outcomes (r.handleLoop w port input left attempt)).length =
      (r.attemptSettles w port input attempt).toNat := by
  cases hinvoke : w.invoke attempt with
  | ok results => exact r.outcomes_handleLoop_of_ok w port input hinvoke left
  | error err =>
    have hterminal := r.outcomes_terminal w port input attempt
      (asNodeError err r.id attempt) hretry
    unfold handleLoop attemptSettles
    rw [hinvoke]
    simp only [if_neg hretry]
    exact hterminal

theorem outcomes_handleLoop_retry (hretry : r.onError = .retry) (left attempt : Nat) :
    (outcomes (r.handleLoop w port input left attempt)).length =
      (w.undisturbed attempt (w.lastAttempt left attempt) &&
        r.attemptSettles w port input (w.lastAttempt left attempt)).toNat := by
  induction left generalizing attempt with
  | zero =>
    rw [World.lastAttempt, undisturbed_self]
    cases hinvoke : w.invoke attempt with
    | ok results => exact r.outcomes_handleLoop_of_ok w port input hinvoke 0
    | error err =>
      have hfail := congrArg List.length (r.outcomes_fail w port input
        attempt (asNodeError err r.id attempt))
      unfold handleLoop attemptSettles terminalSettles
      rw [hinvoke, hretry]
      exact hfail
  | succ left ih =>
    cases hinvoke : w.invoke attempt with
    | ok results =>
      have hlast : w.lastAttempt (left + 1) attempt = attempt := by
        rw [World.lastAttempt, hinvoke]
        rfl
      rw [hlast, undisturbed_self]
      exact r.outcomes_handleLoop_of_ok w port input hinvoke (left + 1)
    | error err =>
      have hlast : w.lastAttempt (left + 1) attempt = w.lastAttempt left (attempt + 1) := by
        rw [World.lastAttempt, hinvoke]
        rfl
      have hlt : attempt < w.lastAttempt left (attempt + 1) :=
        le_lastAttempt w left (attempt + 1)
      rw [hlast, undisturbed_succ w hlt]
      unfold handleLoop
      rw [hinvoke]
      simp only [if_pos hretry]
      cases w.cancelled attempt with
      | true => rfl
      | false => exact ih (attempt + 1)

theorem outcomes_handle :
    (outcomes (r.handle w port input)).length =
      (w.undisturbed 1 (w.lastAttempt r.retriesAllowed 1) &&
        r.attemptSettles w port input
          (w.lastAttempt r.retriesAllowed 1)).toNat := by
  unfold handle retriesAllowed
  by_cases hretry : r.onError = .retry
  · rw [if_pos hretry]
    exact r.outcomes_handleLoop_retry w port input hretry r.maxRetries 1
  · rw [if_neg hretry]
    exact r.outcomes_handleLoop_once w port input hretry r.maxRetries 1

theorem outcomes_process :
    (outcomes (r.process w port input)).length =
      (r.settles w port input).toNat := by
  unfold process dropExpired settles
  cases hexpired : input.header.expired w.received with
  | true => rfl
  | false => exact r.outcomes_handle w port input

end NodeRunner

/--
Each datagram a processor loop takes from its inbox has at most one terminal
outcome, and exactly one if and only if it settles.
-/
theorem terminal_outcomes (r : NodeRunner) (port : String) (inputs : List (Datagram × World)) :
    (∀ handled ∈ r.runProcessor port inputs,
      (outcomes handled.2).length ≤ 1) ∧
    ((∀ handled ∈ r.runProcessor port inputs,
      (outcomes handled.2).length = 1) ↔
      ∀ received ∈ inputs, r.settles received.2 port received.1 = true) := by
  induction inputs with
  | nil => simp [NodeRunner.runProcessor]
  | cons received inputs ih =>
    obtain ⟨input, w⟩ := received
    have houtcomes := r.outcomes_process w port input
    rw [NodeRunner.runProcessor]
    simp only [List.forall_mem_cons]
    refine ⟨⟨?_, ih.1⟩, and_congr ?_ ih.2⟩
    · rw [houtcomes]
      exact Bool.toNat_le _
    · rw [houtcomes]
      exact Bool.toNat_eq_one

def retryOnce : NodeRunner where
  id := "n"
  flowID := "flow"
  errorPolicy := some { onError := "retry", retry := some { max := 1 } }
  outputs := ["out"]

def stoppedInBackoff : World where
  received := 0
  started _ := 0
  durationUs _ := 0
  invoke _ := .error { message := "unreachable" }
  cancelled _ := true
  send _ := .ok ()
  sfQueue := none
  marshal _ _ := none
  enqueuedAt := 0
  diskAnswer := .ok
  errorFlowTarget := some ""
  newID := "e"
  encode _ := .null

theorem stoppedInBackoff_has_no_outcome :
    ¬ ∀ (r : NodeRunner) (port : String) (inputs : List (Datagram × World)),
      ∀ handled ∈ r.runProcessor port inputs,
        (outcomes handled.2).length = 1 := by
  intro hall
  have hone := hall retryOnce "in" [(default, stoppedInBackoff)] _
    List.mem_cons_self
  exact absurd hone (by decide)

end DataPipe.Flow
