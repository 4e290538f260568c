import DataPipe.Flow.File
import DataPipe.Foundation.Threads
import Mathlib.Data.Prod.Lex

/-!
# Draining under the deployment lock

`Deploy` and `Stop` hold the deployment's mutex while they wait for the goroutines of the nodes
they stop.  A goroutine that ends an invocation with an unhandled failure asks for the error
flow, and that call takes the same mutex.  The phases are those of the loops of
`engine/flow/runner.go` and of the store-and-forward drain; what a node's code, a timer or a
wire does next is the choice of the environment.
-/

namespace DataPipe.Flow

open DataPipe.Foundation

inductive LoopKind where
  | processor
  | drainer
  | source
  deriving DecidableEq, Repr

/--
Where a goroutine stands.  `reporting` carries the outcome it reports, and
`lookingUp` is the call of `ErrorFlowTarget`, which needs the lock.
-/
inductive LoopPhase where
  | receiving
  | invoking (attempt : Nat)
  | waiting (attempt : Nat)
  | dispatching (sends : Nat) (report : OnError)
  | reporting (report : OnError)
  | lookingUp
  | publishing
  | exited
  deriving DecidableEq, Repr

structure Goroutine where
  owner : Nat
  kind : LoopKind
  policy : OnError
  maxRetries : Int
  errorOutput : Bool
  phase : LoopPhase
  deriving DecidableEq, Repr

inductive Choice where
  | received (expired : Bool)
  | closed
  | succeeded (outputs : Nat)
  | failed (parked : Bool)
  | elapsed
  | interrupted
  | emitted
  | returned
  | sent
  | reported
  | lookedUp (configured : Bool)
  | published
  deriving DecidableEq, Repr

/-- The error branch of `handle`; `parked` tells whether the entry was stored. -/
def Goroutine.afterFailure (g : Goroutine) (attempt : Nat) (parked : Bool) : LoopPhase :=
  match g.kind with
  | .drainer => .receiving
  | _ =>
    match g.policy with
    | .retry =>
      if (attempt : Int) ≤ g.maxRetries then .waiting attempt else .reporting .fail
    | .errorPort =>
      if g.errorOutput then .dispatching 1 .errorPort else .reporting .fail
    | .discard => .reporting .discard
    | .storeForward => .reporting (if parked then .storeForward else .fail)
    | _ => .reporting .fail

def Goroutine.afterSends (g : Goroutine) (report : OnError) : LoopPhase :=
  match g.kind with
  | .source => .invoking 0
  | _ => .reporting report

def Goroutine.fromReceiving (cancelled : Bool) : Choice → Option LoopPhase
  | .received expired =>
    if cancelled then none
    else if expired then some (.reporting .none)  -- reported without an error
    else some (.invoking 1)
  | .closed => some .exited
  | _ => none

def Goroutine.fromInvoking (g : Goroutine) (cancelled : Bool) (attempt : Nat) :
    Choice → Option LoopPhase
  | .succeeded outputs =>
    if g.kind = .source then none else some (.dispatching outputs .none)
  | .failed parked =>
    if g.kind = .source then none else some (g.afterFailure attempt parked)
  | .emitted =>
    if g.kind = .source ∧ ¬ cancelled then some (.dispatching 1 .none) else none
  | .returned => if g.kind = .source then some .exited else none
  | _ => none

/-- One step of a goroutine; `none` when the choice does not apply or blocks. -/
def Goroutine.next (g : Goroutine) (lockFree cancelled : Bool) (choice : Choice) :
    Option LoopPhase :=
  match g.phase with
  | .receiving => Goroutine.fromReceiving cancelled choice
  | .invoking attempt => g.fromInvoking cancelled attempt choice
  | .waiting attempt =>
    match choice with
    | .elapsed => some (.invoking (attempt + 1))
    | .interrupted => if cancelled then some .receiving else none
    | _ => none
  | .dispatching sends report =>
    match choice, sends with
    | .sent, 0 => some (g.afterSends report)
    | .sent, sends + 1 => some (.dispatching sends report)
    | _, _ => none
  | .reporting report =>
    match choice with
    | .reported => some (if report = .fail then .lookingUp else .receiving)
    | _ => none
  | .lookingUp =>
    match choice with
    | .lookedUp configured =>
      if lockFree then some (if configured then .publishing else .receiving) else none
    | _ => none
  | .publishing =>
    match choice with
    | .published => some .receiving
    | _ => none
  | .exited => none

def Goroutine.start (owner : Nat) (kind : LoopKind) (policy : OnError)
    (maxRetries : Int) (errorOutput : Bool) : Goroutine where
  owner := owner
  kind := kind
  policy := policy
  maxRetries := maxRetries
  errorOutput := errorOutput
  phase := if kind = .source then .invoking 0 else .receiving

/--
The lock is free or held by a call of `Deploy` or `Stop`; `some nodes` lists
the nodes whose drain the holder is waiting for.
-/
structure LockWorld where
  holder : Option (List Nat)
  cancelled : List Nat
  goroutines : List Goroutine
  deriving DecidableEq, Repr

def LockWorld.start : LockWorld := ⟨none, [], []⟩

inductive LockAction where
  | acquire
  | drain (nodes : List Nat)
  | drained
  | drainTimeout
  | spawn (owner : Nat) (kind : LoopKind) (policy : OnError) (maxRetries : Int)
      (errorOutput : Bool)
  | release
  | loop (index : Nat) (choice : Choice)
  deriving DecidableEq, Repr

def LockWorld.isCancelled (w : LockWorld) (g : Goroutine) : Bool :=
  g.owner ∈ w.cancelled

def LockWorld.isDrained (w : LockWorld) (g : Goroutine) : Bool :=
  w.holder.any fun nodes => g.owner ∈ nodes

def LockWorld.step (w : LockWorld) : LockAction → Option LockWorld
  | .acquire => if w.holder = none then some { w with holder := some [] } else none
  | .drain nodes =>
    if w.holder = some [] then
      some { w with holder := some nodes, cancelled := nodes ++ w.cancelled }
    else none
  | .drained =>
    if w.holder.isSome ∧ ∀ g ∈ w.goroutines, w.isDrained g → g.phase = .exited then
      some { w with holder := some [] }
    else none
  | .drainTimeout => if w.holder.isSome then some { w with holder := some [] } else none
  | .spawn owner kind policy maxRetries errorOutput =>
    -- a node instance gets a fresh context, so its owner was not cancelled
    if w.holder = some [] ∧ owner ∉ w.cancelled then
      some { w with
        goroutines := w.goroutines ++ [.start owner kind policy maxRetries errorOutput] }
    else none
  | .release => if w.holder = some [] then some { w with holder := none } else none
  | .loop index choice =>
    match w.goroutines[index]? with
    | none => none
    | some g =>
      match g.next (w.holder = none) (w.isCancelled g) choice with
      | none => none
      | some phase =>
        some { w with goroutines := w.goroutines.set index { g with phase := phase } }

def LoopPhase.failing : LoopPhase → Bool
  | .reporting report => report = .fail
  | .lookingUp => true
  | .publishing => true
  | _ => false

def NoCyclicWait (w : LockWorld) : Prop :=
  ∀ g ∈ w.goroutines, w.isDrained g → g.phase ≠ .lookingUp

def Goroutine.rank (g : Goroutine) : Nat ×ₗ Nat :=
  match g.kind, g.phase with
  | _, .exited => toLex (0, 0)
  | .source, .dispatching sends _ => toLex (0, 2 + sends)
  | .source, _ => toLex (0, 1)
  | _, .receiving => toLex (0, 1)
  | _, .publishing => toLex (0, 2)
  | _, .lookingUp => toLex (0, 3)
  | _, .reporting _ => toLex (0, 4)
  | _, .dispatching sends _ => toLex (0, 5 + sends)
  | _, .waiting attempt => toLex (2 * (g.maxRetries + 1 - attempt).toNat, 0)
  | _, .invoking attempt => toLex (2 * (g.maxRetries + 1 - attempt).toNat + 1, 0)

/--
Every goroutine that the holder waits for has a step to take until it has
exited, and each of its steps brings it closer to the exit.
-/
def DrainsPromptly (w : LockWorld) : Prop :=
  ∀ g ∈ w.goroutines, w.isDrained g → g.phase ≠ .exited →
    (∃ choice phase, g.next (w.holder = none) (w.isCancelled g) choice = some phase) ∧
      ∀ choice phase, g.next (w.holder = none) (w.isCancelled g) choice = some phase →
        Goroutine.rank { g with phase := phase } < g.rank

/--
A drain begins only when none of its goroutines is handling an unhandled
failure, and no goroutine that is being drained ends an invocation in one.
-/
def DrainsUnfailed (w : LockWorld) : LockAction → Prop
  | .drain nodes => ∀ g ∈ w.goroutines, g.owner ∈ nodes → g.phase.failing = false
  | .loop index choice =>
    ∀ g ∈ w.goroutines[index]?, w.isDrained g →
      g.next (w.holder = none) (w.isCancelled g) choice ≠ some (.reporting .fail)
  | _ => True

instance (w : LockWorld) (action : LockAction) : Decidable (DrainsUnfailed w action) := by
  cases action <;> unfold DrainsUnfailed <;> infer_instance

def Goroutine.Fits (g : Goroutine) : Prop :=
  match g.kind, g.phase with
  | .source, .invoking _ => True
  | .source, .dispatching _ _ => True
  | .source, .exited => True
  | .source, _ => False
  | _, .waiting attempt => (attempt : Int) ≤ g.maxRetries
  | _, _ => True

attribute [local simp] Goroutine.next LockWorld.isDrained LoopPhase.failing Goroutine.Fits

theorem fits_start (owner : Nat) (kind : LoopKind) (policy : OnError) (maxRetries : Int)
    (errorOutput : Bool) : (Goroutine.start owner kind policy maxRetries errorOutput).Fits := by
  cases kind <;> simp [Goroutine.start]

inductive LoopStep (g : Goroutine) (lockFree cancelled : Bool) :
    LoopPhase → LoopPhase → Prop
  | closes : LoopStep g lockFree cancelled .receiving .exited
  | expires (hlive : cancelled = false) :
      LoopStep g lockFree cancelled .receiving (.reporting .none)
  | receives (hlive : cancelled = false) : LoopStep g lockFree cancelled .receiving (.invoking 1)
  | succeeds (attempt outputs : Nat) (hkind : g.kind ≠ .source) :
      LoopStep g lockFree cancelled (.invoking attempt) (.dispatching outputs .none)
  | leavesQueued (attempt : Nat) (hkind : g.kind = .drainer) :
      LoopStep g lockFree cancelled (.invoking attempt) .receiving
  | retries (attempt : Nat) (hkind : g.kind = .processor)
      (hleft : (attempt : Int) ≤ g.maxRetries) :
      LoopStep g lockFree cancelled (.invoking attempt) (.waiting attempt)
  | routesError (attempt : Nat) (hkind : g.kind = .processor) :
      LoopStep g lockFree cancelled (.invoking attempt) (.dispatching 1 .errorPort)
  | handles (attempt : Nat) (report : OnError) (hkind : g.kind = .processor)
      (hreport : report ≠ .fail) :
      LoopStep g lockFree cancelled (.invoking attempt) (.reporting report)
  | fails (attempt : Nat) (hkind : g.kind = .processor) :
      LoopStep g lockFree cancelled (.invoking attempt) (.reporting .fail)
  | emits (attempt : Nat) (hkind : g.kind = .source) (hlive : cancelled = false) :
      LoopStep g lockFree cancelled (.invoking attempt) (.dispatching 1 .none)
  | returns (attempt : Nat) (hkind : g.kind = .source) :
      LoopStep g lockFree cancelled (.invoking attempt) .exited
  | elapses (attempt : Nat) :
      LoopStep g lockFree cancelled (.waiting attempt) (.invoking (attempt + 1))
  | interrupts (attempt : Nat) (hcancelled : cancelled = true) :
      LoopStep g lockFree cancelled (.waiting attempt) .receiving
  | sends (sends : Nat) (report : OnError) :
      LoopStep g lockFree cancelled (.dispatching (sends + 1) report)
        (.dispatching sends report)
  | resumes (report : OnError) (hkind : g.kind = .source) :
      LoopStep g lockFree cancelled (.dispatching 0 report) (.invoking 0)
  | dispatched (report : OnError) (hkind : g.kind ≠ .source) :
      LoopStep g lockFree cancelled (.dispatching 0 report) (.reporting report)
  | asks : LoopStep g lockFree cancelled (.reporting .fail) .lookingUp
  | reports (report : OnError) (hreport : report ≠ .fail) :
      LoopStep g lockFree cancelled (.reporting report) .receiving
  | finds (hlock : lockFree = true) : LoopStep g lockFree cancelled .lookingUp .publishing
  | findsNone (hlock : lockFree = true) : LoopStep g lockFree cancelled .lookingUp .receiving
  | publishes : LoopStep g lockFree cancelled .publishing .receiving

section Step

variable {g : Goroutine} {lockFree cancelled : Bool} {choice : Choice}
  {phase : LoopPhase}

theorem loopStep_afterFailure (hkind : g.kind ≠ .source) (attempt : Nat) (parked : Bool) :
    LoopStep g lockFree cancelled (.invoking attempt) (g.afterFailure attempt parked) := by
  cases hk : g.kind with
  | source => contradiction
  | drainer =>
    rw [Goroutine.afterFailure, hk]
    exact .leavesQueued attempt hk
  | processor =>
    fun_cases g.afterFailure attempt parked
    next hdrainer => cases hk.symm.trans hdrainer
    next hleft _ => exact .retries attempt hk hleft
    next => exact .fails attempt hk
    next => exact .routesError attempt hk
    next => exact .fails attempt hk
    next => exact .handles attempt _ hk (by decide)
    next =>
      split
      · exact .handles attempt _ hk (by decide)
      · exact .fails attempt hk
    next => exact .fails attempt hk

theorem loopStep_fromReceiving (h : Goroutine.fromReceiving cancelled choice = some phase) :
    LoopStep g lockFree cancelled .receiving phase := by
  revert h
  fun_cases Goroutine.fromReceiving cancelled choice <;> rintro ⟨⟩
  next hlive => exact .expires (by simpa using hlive)
  next hlive _ => exact .receives (by simpa using hlive)
  next => exact .closes

theorem loopStep_fromInvoking {attempt : Nat}
    (h : g.fromInvoking cancelled attempt choice = some phase) :
    LoopStep g lockFree cancelled (.invoking attempt) phase := by
  revert h
  fun_cases g.fromInvoking cancelled attempt choice <;> rintro ⟨⟩
  next outputs hkind => exact .succeeds attempt outputs hkind
  next parked hkind => exact loopStep_afterFailure hkind attempt parked
  next hemit => exact .emits attempt hemit.1 (by simpa using hemit.2)
  next hkind => exact .returns attempt hkind

theorem loopStep_of_next (h : g.next lockFree cancelled choice = some phase) :
    LoopStep g lockFree cancelled g.phase phase := by
  revert h
  fun_cases g.next lockFree cancelled choice
  next hphase => exact fun h => hphase ▸ loopStep_fromReceiving h
  next hphase => exact fun h => hphase ▸ loopStep_fromInvoking h
  all_goals rintro ⟨⟩
  next attempt hphase => exact hphase ▸ .elapses attempt
  next attempt hphase hcancelled => exact hphase ▸ .interrupts attempt hcancelled
  next report hphase =>
    rw [hphase]
    cases hkind : g.kind with
    | source =>
      simp only [Goroutine.afterSends, hkind]
      exact .resumes report hkind
    | _ =>
      simp only [Goroutine.afterSends, hkind]
      exact .dispatched report (by rw [hkind]; decide)
  next report _ hphase => exact hphase ▸ .sends _ report
  next report hphase =>
    rw [hphase]
    split
    case isTrue hfail =>
      subst hfail
      exact .asks
    case isFalse hreport => exact .reports report hreport
  next hphase configured hlock =>
    rw [hphase]
    split
    · exact .finds hlock
    · exact .findsNone hlock
  next hphase => exact hphase ▸ .publishes

variable {phase₀ : LoopPhase}

theorem fits_of_loopStep (hfits : Goroutine.Fits { g with phase := phase₀ })
    (h : LoopStep g lockFree cancelled phase₀ phase) :
    Goroutine.Fits { g with phase := phase } := by
  cases hkind : g.kind <;> cases h <;> simp_all

theorem failing_of_loopStep (hcalm : phase₀.failing = false)
    (h : LoopStep g lockFree cancelled phase₀ phase)
    (hunfailed : phase ≠ .reporting .fail) : phase.failing = false := by
  cases h <;> simp_all

theorem rank_of_loopStep (hfits : Goroutine.Fits { g with phase := phase₀ })
    (h : LoopStep g lockFree true phase₀ phase) :
    Goroutine.rank { g with phase := phase } < Goroutine.rank { g with phase := phase₀ } := by
  cases hkind : g.kind <;> cases h <;>
    simp_all [Goroutine.rank, Prod.Lex.toLex_lt_toLex] <;> omega

theorem exists_next (hcalm : g.phase.failing = false) (hexited : g.phase ≠ .exited) :
    ∃ choice phase, g.next lockFree true choice = some phase := by
  cases hphase : g.phase with
  | receiving =>
    refine ⟨.closed, .exited, ?_⟩
    simp [hphase, Goroutine.fromReceiving]
  | invoking attempt =>
    by_cases hkind : g.kind = .source
    · refine ⟨.returned, .exited, ?_⟩
      simp [hphase, Goroutine.fromInvoking, hkind]
    · refine ⟨.succeeded 0, .dispatching 0 .none, ?_⟩
      simp [hphase, Goroutine.fromInvoking, hkind]
  | waiting attempt =>
    refine ⟨.interrupted, .receiving, ?_⟩
    simp [hphase]
  | dispatching sends report =>
    cases sends with
    | zero => exact ⟨.sent, g.afterSends report, by simp [hphase]⟩
    | succ sends => exact ⟨.sent, .dispatching sends report, by simp [hphase]⟩
  | reporting report =>
    refine ⟨.reported, .receiving, ?_⟩
    have hreport : report ≠ .fail := by simpa [hphase] using hcalm
    simp [hphase, hreport]
  | lookingUp | publishing => simp [hphase] at hcalm
  | exited => exact absurd hphase hexited

end Step

structure LockWorld.Calm (w : LockWorld) (g : Goroutine) : Prop where
  fits : g.Fits
  cancelled : w.isDrained g → w.isCancelled g
  calm : w.isDrained g → g.phase.failing = false

def LockWorld.Sound (w : LockWorld) : Prop :=
  ∀ g ∈ w.goroutines, w.Calm g

variable {w w' : LockWorld} {g : Goroutine}

theorem LockWorld.Calm.withGoroutines (h : w.Calm g) (goroutines : List Goroutine) :
    LockWorld.Calm { w with goroutines := goroutines } g :=
  ⟨h.fits, h.cancelled, h.calm⟩

theorem calm_of_not_drained (hfits : g.Fits) (h : w.isDrained g = false) : w.Calm g := by
  refine ⟨hfits, ?_, ?_⟩
  · intro hdrained
    rw [h] at hdrained
    contradiction
  · intro hdrained
    rw [h] at hdrained
    contradiction

theorem sound_of_idle (h : w.Sound) (hgoroutines : w'.goroutines = w.goroutines)
    (hidle : w'.holder = none ∨ w'.holder = some []) : w'.Sound := by
  intro g hg
  rw [hgoroutines] at hg
  apply calm_of_not_drained (h g hg).fits
  rcases hidle with hidle | hidle
  · simp [hidle]
  · simp [hidle]

theorem sound_loop {index : Nat} {choice : Choice} (h : w.Sound)
    (hok : DrainsUnfailed w (.loop index choice))
    (hstep : w.step (.loop index choice) = some w') : w'.Sound := by
  rw [LockWorld.step] at hstep
  split at hstep
  case h_1 => contradiction
  case h_2 g hg =>
    split at hstep
    case h_1 => contradiction
    case h_2 phase hnext =>
      cases hstep
      have hmem : g ∈ w.goroutines := List.mem_of_getElem? hg
      have hstep := loopStep_of_next hnext
      have hcalm : w.Calm { g with phase := phase } := by
        refine ⟨fits_of_loopStep (h g hmem).fits hstep, (h g hmem).cancelled, ?_⟩
        intro hdrained
        apply failing_of_loopStep ((h g hmem).calm hdrained) hstep
        rintro rfl
        exact hok g hg hdrained hnext
      intro other hother
      exact (forall_mem_set h hcalm other hother).withGoroutines _

theorem sound_step {action : LockAction} (h : w.Sound) (hok : DrainsUnfailed w action)
    (hstep : w.step action = some w') : w'.Sound := by
  cases action with
  | loop index choice => exact sound_loop h hok hstep
  | acquire | drained | drainTimeout =>
    obtain ⟨-, ⟨⟩⟩ := Option.ite_none_right_eq_some.mp hstep
    exact sound_of_idle h rfl (.inr rfl)
  | release =>
    obtain ⟨-, ⟨⟩⟩ := Option.ite_none_right_eq_some.mp hstep
    exact sound_of_idle h rfl (.inl rfl)
  | drain nodes =>
    obtain ⟨-, ⟨⟩⟩ := Option.ite_none_right_eq_some.mp hstep
    intro g hg
    have hmem : LockWorld.isDrained { w with
        holder := some nodes, cancelled := nodes ++ w.cancelled } g →
        g.owner ∈ nodes := by
      simp
    refine ⟨(h g hg).fits, ?_, fun hdrained => hok g hg (hmem hdrained)⟩
    intro hdrained
    apply decide_eq_true
    exact List.mem_append_left _ (hmem hdrained)
  | spawn owner kind policy maxRetries errorOutput =>
    obtain ⟨hidle, ⟨⟩⟩ := Option.ite_none_right_eq_some.mp hstep
    have hcalm : w.Calm (.start owner kind policy maxRetries errorOutput) := by
      apply calm_of_not_drained (fits_start owner kind policy maxRetries errorOutput)
      simp [hidle.1]
    intro other hother
    exact (forall_mem_concat h hcalm other hother).withGoroutines _

theorem LockWorld.Sound.noCyclicWait (h : w.Sound) : NoCyclicWait w := by
  intro g hg hdrained hphase
  have hcalm := (h g hg).calm hdrained
  rw [hphase] at hcalm
  contradiction

theorem LockWorld.Sound.drainsPromptly (h : w.Sound) : DrainsPromptly w := by
  intro g hg hdrained hexited
  obtain ⟨hfits, hcancelled, hcalm⟩ := h g hg
  rw [hcancelled hdrained]
  refine ⟨exists_next (hcalm hdrained) hexited, ?_⟩
  intro choice phase hnext
  exact rank_of_loopStep hfits (loopStep_of_next hnext)

/--
In every interleaving whose drains are unfailed, no goroutine that a drain is
waiting for is blocked on the lock, and each of them runs to its exit.
-/
theorem drain_never_waits_for_lock (actions : List LockAction) (w : LockWorld)
    (hmeets : Meets LockWorld.step DrainsUnfailed .start actions)
    (hrun : run LockWorld.step .start actions = some w) : NoCyclicWait w ∧ DrainsPromptly w := by
  have hstart : LockWorld.Sound .start := by
    intro g hg
    contradiction
  have hsound := run_invariant_of_meets sound_step hstart hmeets hrun
  exact ⟨hsound.noCyclicWait, hsound.drainsPromptly⟩

def stopDiscarding : List LockAction :=
  [.acquire, .spawn 0 .processor .discard 0 false, .release,
    .loop 0 (.received false), .acquire, .drain [0], .loop 0 (.failed false)]

theorem drain_never_waits_for_lock_discarding :
    ∃ w, run LockWorld.step .start stopDiscarding = some w ∧
      NoCyclicWait w ∧ DrainsPromptly w := by
  refine ⟨⟨some [0], [0], [⟨0, .processor, .discard, 0, false, .reporting .discard⟩]⟩,
    by decide, ?_⟩
  exact drain_never_waits_for_lock stopDiscarding _ (by decide) (by decide)

def stopFailing : List LockAction :=
  [.acquire, .spawn 0 .processor .fail 0 false, .release,
    .loop 0 (.received false), .acquire, .drain [0], .loop 0 (.failed false),
    .loop 0 .reported]

theorem stopFailing_waits_for_lock :
    ∃ w, run LockWorld.step .start stopFailing = some w ∧ ¬ NoCyclicWait w ∧
      ∀ choice, w.step (.loop 0 choice) = none := by
  refine ⟨⟨some [0], [0], [⟨0, .processor, .fail, 0, false, .lookingUp⟩]⟩, by decide, ?_, ?_⟩
  · intro h
    exact h _ List.mem_cons_self (by decide) rfl
  · intro choice
    cases choice <;> rfl

end DataPipe.Flow
