import DataPipe.Flow.Outcome
import Mathlib.Data.ENat.Lattice
import Mathlib.Tactic.Linarith

/-!
# Retries

The calls and the waits of the loop of `handle` in `engine/flow/runner.go`, and the generator of
`engine/internal/backoff` that the waits come from, over the rationals and in milliseconds.
-/

set_option linter.dupNamespace false

namespace DataPipe.Flow

open DataPipe.Foundation

structure Backoff where
  min : Rat
  max : Rat
  factor : Rat
  attempt : Nat := 0

namespace Backoff

/-- `Next`; `draw` is what `rand.Float64` returns. -/
def next (b : Backoff) (draw : Rat) : Rat × Backoff :=
  let d := b.min * b.factor ^ b.attempt
  if b.max < d then (b.max * (4 / 5 + 2 / 5 * draw), b)
  else (d * (4 / 5 + 2 / 5 * draw), { b with attempt := b.attempt + 1 })

end Backoff

def RetryPolicy.backoff (policy : RetryPolicy) : Backoff where
  min := policy.backoffMs
  max := policy.maxBackoffMs
  factor := 2

/-- What the node's own code does; `invokeWithRecover` turns a panic into an error. -/
inductive Invocation where
  | returns (results : List PortDatagram)
  | fails (err : NodeError)
  | panics (message stack : String)

def invokeWithRecover : Invocation → Except NodeError (List PortDatagram)
  | .returns results => .ok results
  | .fails err => .error err
  | .panics message stack => .error { message, stack }

inductive Beat where
  | invoke (attempt : Nat)
  | wait (delay : Rat)

def Beat.call : Beat → Option Nat
  | .invoke attempt => some attempt
  | .wait _ => none

def Beat.delay : Beat → Option Rat
  | .invoke _ => none
  | .wait delay => some delay

namespace NodeRunner

/-- The loop of `handleLoop` again, with its calls of `invoke` and its waits. -/
def beats (r : NodeRunner) (w : World) (draw : Nat → Rat) : Nat → Nat → Backoff → List Beat
  | left, attempt, bo =>
    .invoke attempt ::
      match w.invoke attempt with
      | .ok _ => []
      | .error _ =>
        if r.onError = .retry then
          match left with
          | 0 => []
          | left + 1 =>
            .wait (bo.next (draw attempt)).1 ::
              if w.cancelled attempt then []
              else r.beats w draw left (attempt + 1) (bo.next (draw attempt)).2
        else []

def handleBeats (r : NodeRunner) (w : World) (draw : Nat → Rat) : List Beat :=
  r.beats w draw r.maxRetries 1 ((r.policy.retry.getD {}).backoff)

def calls (r : NodeRunner) (w : World) (draw : Nat → Rat) : List Nat :=
  (r.handleBeats w draw).filterMap Beat.call

def waits (r : NodeRunner) (w : World) (draw : Nat → Rat) : List Rat :=
  (r.handleBeats w draw).filterMap Beat.delay

end NodeRunner

namespace Effect

def counts (metric : Metric) : Effect → Bool
  | .count other => other = metric
  | _ => false

def isDispatch : Effect → Bool
  | .send _ _ _ | .noSuchPort _ => true
  | _ => false

def isReport : Effect → Bool
  | .nodeEvent _ => true
  | _ => false

end Effect

def NodeRunner.dispatchOf (r : NodeRunner) (w : World) (attempt : Nat) : List Effect :=
  match w.invoke attempt with
  | .ok results => r.dispatch w 0 results
  | .error _ => []

/-- The counters, the dispatches and the report of a loop that makes the given calls. -/
structure RetryAccount (r : NodeRunner) (w : World) (calls : List Nat) (effects : List Effect) :
    Prop where
  errors : effects.countP (Effect.counts .errors) = calls.countP fun k => !(w.invoke k).isOk
  retries : effects.countP (Effect.counts .retries) + 1 = calls.length
  processed : effects.countP (Effect.counts .processed) =
    if calls.any fun k => (w.invoke k).isOk then 1 else 0
  dispatched : effects.filter Effect.isDispatch = calls.flatMap (r.dispatchOf w)
  reported : ∃ call : EventCall, effects.filter Effect.isReport = [.nodeEvent call] ∧
    calls.getLast?.map Nat.cast = some call.io.attempt

attribute [local simp] List.filterMap_cons Except.toBool Beat.delay Beat.call

section Account

variable (r : NodeRunner) (w : World) (port : String) (input : Datagram) (attempt : Nat)

theorem isDispatch_of_mem {index : Nat} {results : List PortDatagram} {e : Effect}
    (he : e ∈ r.dispatch w index results) :
    e.isDispatch = true ∧ (∀ metric, e.counts metric = false) ∧ e.isReport = false := by
  induction results generalizing index with
  | nil => cases he
  | cons result results ih =>
    rcases List.mem_cons.mp he with rfl | hrest
    · split <;> simp [Effect.isDispatch, Effect.counts, Effect.isReport]
    · exact ih hrest

theorem exists_reportNode (outputs : List PortDatagram) (err : Option NodeError)
    (onError : OnError) :
    ∃ (call : EventCall) (rest : List Effect), call.io.attempt = attempt ∧
      r.reportNode w input port attempt outputs err onError = .nodeEvent call :: rest ∧
      ∀ e ∈ rest, e.isDispatch = false ∧ (∀ metric, e.counts metric = false) ∧
        e.isReport = false := by
  refine ⟨_, _, rfl, rfl, ?_⟩
  cases err with
  | none => simp
  | some err =>
    refine List.forall_mem_append.mpr ⟨?_, ?_⟩
    · split <;> simp [Effect.counts, Effect.isDispatch, Effect.isReport]
    · cases w.errorFlowTarget with
      | none => simp
      | some target =>
        dsimp only
        split <;> simp [Effect.counts, Effect.isDispatch, Effect.isReport]

theorem retryAccount_last (outputs : List PortDatagram) (err : Option NodeError)
    (onError : OnError) :
    RetryAccount r w [attempt]
      (.count (if (w.invoke attempt).isOk then .processed else .errors) ::
        (r.dispatchOf w attempt ++ r.reportNode w input port attempt outputs err onError)) := by
  obtain ⟨call, rest, hattempt, hreport, hrest⟩ :=
    exists_reportNode r w port input attempt outputs err onError
  have hsent : ∀ e ∈ r.dispatchOf w attempt,
      e.isDispatch = true ∧ (∀ metric, e.counts metric = false) ∧ e.isReport = false := by
    unfold NodeRunner.dispatchOf
    cases w.invoke attempt with
    | ok results => exact fun e he => isDispatch_of_mem r w he
    | error err => simp
  rw [hreport]
  generalize hdispatch : r.dispatchOf w attempt = sent at *
  have hquiet : ∀ metric, sent.countP (Effect.counts metric) = 0 ∧
      rest.countP (Effect.counts metric) = 0 := by
    intro metric
    simp only [List.countP_eq_zero]
    exact ⟨fun e he => by simp [hsent e he], fun e he => by simp [hrest e he]⟩
  have hnone : sent.filter Effect.isReport = [] ∧ rest.filter Effect.isReport = [] ∧
      rest.filter Effect.isDispatch = [] := by
    simp only [List.filter_eq_nil_iff]
    exact ⟨fun e he => by simp [hsent e he], fun e he => by simp [hrest e he],
      fun e he => by simp [hrest e he]⟩
  have hkept : sent.filter Effect.isDispatch = sent :=
    List.filter_eq_self.mpr fun e he => (hsent e he).1
  constructor
  · cases hok : (w.invoke attempt).isOk <;> simp [hquiet, hok, Effect.counts]
  · cases hok : (w.invoke attempt).isOk <;> simp [hquiet, Effect.counts]
  · cases hok : (w.invoke attempt).isOk <;> simp [hquiet, hok, Effect.counts]
  · simp [hkept, hnone, hdispatch, Effect.isDispatch]
  · exact ⟨call, by simp [List.filter_cons, hnone, Effect.isReport], by simp [hattempt]⟩

variable {attempt}

variable {r w} in
theorem RetryAccount.retried {calls : List Nat} {effects : List Effect} {err : NodeError}
    (h : RetryAccount r w calls effects) (hinvoke : w.invoke attempt = .error err) :
    RetryAccount r w (attempt :: calls) (.count .errors :: .count .retries :: effects) where
  errors := by simp [h.errors, hinvoke, Effect.counts]
  retries := by simp [← h.retries, Effect.counts]
  processed := by simp [h.processed, hinvoke, Effect.counts]
  dispatched := by simp [h.dispatched, NodeRunner.dispatchOf, hinvoke, Effect.isDispatch]
  reported := by
    obtain ⟨call, hreport, hlast⟩ := h.reported
    refine ⟨call, by simp [hreport, Effect.isReport], ?_⟩
    cases calls with
    | nil => cases hlast
    | cons k calls => simpa using hlast

variable (hretry : r.onError = .retry) (hcancel : ∀ k, w.cancelled k = false)

include hretry hcancel

theorem retryAccount_handleLoop (draw : Nat → Rat) (left : Nat) (bo : Backoff) :
    RetryAccount r w ((r.beats w draw left attempt bo).filterMap Beat.call)
      (r.handleLoop w port input left attempt) := by
  fun_induction NodeRunner.handleLoop r w port input left attempt generalizing bo with
  | case1 left attempt results hinvoke =>
    have hlast := retryAccount_last r w port input attempt results none .none
    unfold NodeRunner.beats
    simpa [NodeRunner.dispatchOf, hinvoke] using hlast
  | case2 left attempt err hinvoke nodeErr ih =>
    unfold NodeRunner.beats
    cases left with
    | zero =>
      have hlast := retryAccount_last r w port input attempt [] (some nodeErr) .fail
      simpa [NodeRunner.dispatchOf, hretry, hinvoke] using hlast
    | succ left =>
      simpa [hretry, hcancel, hinvoke] using
        (ih (bo.next (draw attempt)).2).retried hinvoke

end Account

/-- The number of the first call from `attempt` on that succeeds, `⊤` if there is none. -/
noncomputable def World.firstSuccess (w : World) (attempt : Nat) : ℕ∞ :=
  ⨅ k ∈ {k : Nat | attempt ≤ k ∧ (w.invoke k).isOk = true}, (k : ℕ∞)

section Calls

variable {w : World} {attempt : Nat}

theorem le_firstSuccess : (attempt : ℕ∞) ≤ w.firstSuccess attempt :=
  le_iInf₂ fun _ hk => Nat.cast_le.mpr hk.1

theorem firstSuccess_eq_self (hok : (w.invoke attempt).isOk = true) :
    w.firstSuccess attempt = attempt :=
  le_antisymm (iInf₂_le attempt ⟨le_rfl, hok⟩) le_firstSuccess

theorem firstSuccess_eq_succ (hfail : (w.invoke attempt).isOk = false) :
    w.firstSuccess attempt = w.firstSuccess (attempt + 1) := by
  refine le_antisymm (le_iInf₂ fun k hk => iInf₂_le k ⟨Nat.le_of_succ_le hk.1, hk.2⟩)
    (le_iInf₂ fun k hk => iInf₂_le k ⟨Nat.lt_of_le_of_ne hk.1 ?_, hk.2⟩)
  rintro rfl
  simp [hfail] at hk

theorem length_calls {r : NodeRunner} (hretry : r.onError = .retry)
    (hcancel : ∀ k, w.cancelled k = false) (draw : Nat → Rat) (left : Nat) (bo : Backoff) :
    (((r.beats w draw left attempt bo).filterMap Beat.call).length + attempt : ℕ∞) =
      min (w.firstSuccess attempt) (left + attempt) + 1 := by
  induction left generalizing attempt bo with
  | zero =>
    have hcalls : (r.beats w draw 0 attempt bo).filterMap Beat.call = [attempt] := by
      unfold NodeRunner.beats
      cases w.invoke attempt <;> simp
    rw [hcalls, Nat.cast_zero, zero_add, min_eq_right le_firstSuccess]
    simp [add_comm]
  | succ left ih =>
    unfold NodeRunner.beats
    cases hinvoke : w.invoke attempt with
    | ok results =>
      rw [firstSuccess_eq_self (by rw [hinvoke]; rfl)]
      simp [add_comm]
    | error err =>
      rw [firstSuccess_eq_succ (by rw [hinvoke]; rfl)]
      simpa [hretry, hcancel, add_right_comm _ (1 : ℕ∞),
        add_assoc] using @ih (attempt + 1) (bo.next (draw attempt)).2

end Calls

namespace RetryPolicy

/-- The delay that the policy asks for before the retry after `k` earlier ones. -/
def delay (policy : RetryPolicy) (k : Nat) : Rat :=
  if policy.maxBackoffMs = 0 then policy.backoffMs * 2 ^ k
  else min (policy.backoffMs * 2 ^ k) policy.maxBackoffMs

def Follows (policy : RetryPolicy) (k : Nat) (waited : Rat) : Prop :=
  if policy.jitter then waited ∈ Set.uIcc (4 / 5 * policy.delay k) (6 / 5 * policy.delay k)
  else waited = policy.delay k

end RetryPolicy

/-- The state before the wait number `k`: the exponent stops once the delay exceeds the cap. -/
structure Backoff.At (policy : RetryPolicy) (k : Nat) (b : Backoff) : Prop where
  min_eq : b.min = policy.backoffMs
  max_eq : b.max = policy.maxBackoffMs
  factor_eq : b.factor = 2
  le : b.attempt ≤ k
  capped : b.attempt < k → b.max < b.min * b.factor ^ b.attempt

section Delays

theorem waits_zero (r : NodeRunner) (w : World) (draw : Nat → Rat) (attempt : Nat)
    (b : Backoff) : (r.beats w draw 0 attempt b).filterMap Beat.delay = [] := by
  unfold NodeRunner.beats
  cases w.invoke attempt <;> simp

variable {policy : RetryPolicy} (hbase : 0 ≤ policy.backoffMs)

include hbase

variable {b : Backoff} {k : Nat}

/-- The generator caps at `maxBackoffMs`, also where that is zero. -/
theorem next_eq (h : b.At policy k) (draw : Rat) :
    (b.next draw).1 =
        min (policy.backoffMs * 2 ^ k : Rat) policy.maxBackoffMs * (4 / 5 + 2 / 5 * draw) ∧
      (b.next draw).2.At policy (k + 1) := by
  have hmono : b.min * b.factor ^ b.attempt ≤ policy.backoffMs * 2 ^ k := by
    rw [h.min_eq, h.factor_eq]
    gcongr
    · norm_num
    · exact h.le
  fun_cases Backoff.next b draw
  case case1 d hcap =>
    rw [min_eq_right (h.max_eq ▸ hcap.le.trans hmono), h.max_eq]
    exact ⟨rfl, { h with le := Nat.le_succ_of_le h.le, capped := fun _ => hcap }⟩
  case case2 d hcap =>
    have hk : b.attempt = k := le_antisymm h.le (not_lt.mp fun hlt => hcap (h.capped hlt))
    have hd : d = policy.backoffMs * 2 ^ k := by rw [← h.min_eq, ← hk, ← h.factor_eq]
    rw [← hd, min_eq_left (h.max_eq ▸ not_lt.mp hcap)]
    exact ⟨rfl, { h with
      le := Nat.succ_le_succ h.le
      capped := fun hlt => absurd hlt (by simp [hk]) }⟩

theorem waits_beats (r : NodeRunner) (w : World) {draw : Nat → Rat} {left attempt i : Nat} {x : Rat}
    (h : b.At policy k) (hx : ((r.beats w draw left attempt b).filterMap Beat.delay)[i]? = some x) :
    ∃ j, x = min (policy.backoffMs * 2 ^ (k + i) : Rat) policy.maxBackoffMs *
      (4 / 5 + 2 / 5 * draw j) := by
  induction left generalizing attempt k b i with
  | zero => simp [waits_zero] at hx
  | succ left ih =>
    unfold NodeRunner.beats at hx
    obtain ⟨hwait, hnext⟩ := next_eq hbase h (draw attempt)
    cases hinvoke : w.invoke attempt with
    | ok results => simp [hinvoke] at hx
    | error err =>
      simp only [hinvoke, List.filterMap_cons] at hx
      split_ifs at hx with hretry hcancel
      · cases i <;> simp at hx
        exact ⟨attempt, hx ▸ hwait⟩
      · cases i with
        | zero => exact ⟨attempt, by simpa [hwait] using hx.symm⟩
        | succ i =>
          obtain ⟨j, hj⟩ := ih hnext (by simpa using hx)
          exact ⟨j, by rw [hj, Nat.add_right_comm, Nat.add_assoc]⟩
      · cases hx

end Delays

/--
The waits follow the policy exactly when there is no retry, when there is nothing to wait for, or
when jitter is asked for and there is a cap: `Next` never reads `Jitter`, and takes an omitted
`maxBackoffMs` for a cap of zero.
-/
theorem retry_delays_iff {r : NodeRunner} {policy : RetryPolicy}
    (hpolicy : r.policy.retry = some policy) (hretry : r.onError = .retry)
    (hbase : 0 ≤ policy.backoffMs) :
    (∀ (w : World) (draw : Nat → Rat), (∀ j, 0 ≤ draw j ∧ draw j < 1) →
      ∀ k x, (r.waits w draw)[k]? = some x → policy.Follows k x) ↔
    policy.max ≤ 0 ∨ (policy.backoffMs = 0 ∧ 0 ≤ policy.maxBackoffMs) ∨
      (policy.jitter = true ∧ policy.maxBackoffMs ≠ 0) := by
  have hmax : r.maxRetries = policy.max.toNat := by rw [NodeRunner.maxRetries, hpolicy]
  have hinit : policy.backoff.At policy 0 := ⟨rfl, rfl, rfl, le_rfl, fun h => absurd h (by simp)⟩
  simp only [NodeRunner.waits, NodeRunner.handleBeats, hpolicy, hmax, Option.getD_some]
  constructor
  · intro hfollows
    by_contra hcond
    simp only [not_or, not_and, not_le, not_not] at hcond
    obtain ⟨hretries, hwait, hjitter⟩ := hcond
    obtain ⟨n, hn⟩ : ∃ n, policy.max.toNat = n + 1 := ⟨policy.max.toNat - 1, by omega⟩
    -- The first wait, with the smallest draw.
    have hfirst := hfollows stoppedInBackoff (fun _ => 0) (by simp) 0 _ (by
      rw [hn]
      simp [NodeRunner.beats, stoppedInBackoff, hretry]
      rfl)
    rw [(next_eq hbase hinit 0).1] at hfirst
    unfold RetryPolicy.Follows RetryPolicy.delay at hfirst
    simp only [pow_zero, mul_one, mul_zero, add_zero] at hfirst
    by_cases hcap : policy.maxBackoffMs = 0
    · have hpos : (0 : Rat) < policy.backoffMs := by
        exact_mod_cast lt_of_le_of_ne hbase fun h => (hwait h.symm).ne hcap
      rw [if_pos hcap, hcap, Int.cast_zero, min_eq_right hpos.le, zero_mul] at hfirst
      split_ifs at hfirst
      · rcases Set.mem_uIcc.mp hfirst with h | h <;> linarith
      · linarith
    · rw [if_neg fun h => hcap (hjitter h), if_neg hcap] at hfirst
      have hzero : min (policy.backoffMs : Rat) policy.maxBackoffMs = 0 := by linarith
      rcases min_choice (policy.backoffMs : Rat) policy.maxBackoffMs with h | h
      · have hnegative := hwait (by exact_mod_cast h.symm.trans hzero)
        exact absurd (min_eq_left_iff.mp h)
          (not_le.mpr (by exact_mod_cast hnegative.trans_le hbase))
      · exact hcap (by exact_mod_cast h.symm.trans hzero)
  · rintro (hnone | hcond) w draw hdraw k x hx
    · simp [Int.toNat_of_nonpos hnone, waits_zero] at hx
    obtain ⟨j, rfl⟩ := waits_beats hbase r w hinit hx
    obtain ⟨hlow, hhigh⟩ := hdraw j
    unfold RetryPolicy.Follows RetryPolicy.delay
    rw [Nat.zero_add]
    rcases hcond with ⟨hzero, hcap⟩ | ⟨hjitter, hcap⟩
    · have hmin : min (0 : Rat) policy.maxBackoffMs = 0 := min_eq_left (by exact_mod_cast hcap)
      simp [hzero, hmin]
    · rw [if_pos hjitter, if_neg hcap, Set.mem_uIcc]
      generalize min (policy.backoffMs * 2 ^ k : Rat) policy.maxBackoffMs = v
      rcases le_total 0 v with hv | hv
      · left; constructor <;> nlinarith
      · right; constructor <;> nlinarith

def retrying (policy : RetryPolicy) : NodeRunner :=
  { retryOnce with errorPolicy := some { onError := "retry", retry := some policy } }

theorem retry_delays_iff_documented :
    ((retrying ⟨3, 1000, 30000, true⟩).waits stoppedInBackoff fun _ => 0)[0]? = some 800 ∧
      RetryPolicy.Follows ⟨3, 1000, 30000, true⟩ 0 800 := by
  have hwaits : ((retrying ⟨3, 1000, 30000, true⟩).waits stoppedInBackoff fun _ => 0)[0]? =
      some 800 := by decide +kernel
  have hiff := @retry_delays_iff (retrying ⟨3, 1000, 30000, true⟩) _ rfl rfl (by decide)
  exact ⟨hwaits, hiff.mpr (.inr (.inr ⟨rfl, by decide⟩)) _ _ (by simp) _ _ hwaits⟩

/-- Without a cap nothing is waited; without jitter the wait is still drawn. -/
theorem retry_delays_off_policy :
    (retrying ⟨1, 1000, 0, false⟩).waits stoppedInBackoff (fun _ => 0) = [0] ∧
      RetryPolicy.delay ⟨1, 1000, 0, false⟩ 0 = 1000 ∧
    (retrying ⟨1, 1000, 30000, false⟩).waits stoppedInBackoff (fun _ => 0) = [800] ∧
      RetryPolicy.delay ⟨1, 1000, 30000, false⟩ 0 = 1000 := by
  decide +kernel

end DataPipe.Flow
