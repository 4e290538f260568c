import DataPipe.Foundation.Threads

/-!
# Sinks and outages

`tcp-out` in client mode, `sql-sink` and `mqtt-out` connect behind a `sync.Once`
and keep the connection together with the error of connecting.  The endpoint
goes down and comes back while calls of `Process` are in progress.  What the
libraries of the latter two do is a parameter with the behaviour they document.
-/

set_option linter.dupNamespace false

namespace DataPipe.Nodes

open DataPipe.Foundation

structure Remote where
  reachable : Bool
  outages : Nat
  deriving DecidableEq, Repr

structure Client (Conn : Type) where
  connect : Remote → Option Conn
  write : Remote → Conn → Bool × Conn

namespace Client

variable {Conn : Type}

def Works (c : Client Conn) (remote : Remote) (conn : Conn) : Prop :=
  (c.write remote conn).1 = true

structure Lawful (c : Client Conn) : Prop where
  connects : ∀ remote, remote.reachable = true → ∃ conn, c.connect remote = some conn
  keeps : ∀ remote conn, c.Works remote conn → c.Works remote (c.write remote conn).2

/--
What `database/sql` documents for its pool and the MQTT client for
`AutoReconnect`: a connection that failed is replaced while the endpoint is
reachable.
-/
structure Healing (c : Client Conn) : Prop extends Lawful c where
  heals : ∀ remote conn, remote.reachable = true → ¬ c.Works remote conn →
    c.Works remote (c.write remote conn).2

end Client

/-- A `net.Conn` remembers the outages before it was dialled; nobody redials it. -/
def netConn : Client Nat where
  connect remote := if remote.reachable then some remote.outages else none
  write remote dialled := (remote.reachable && dialled == remote.outages, dialled)

/--
`retries` tells that connecting is tried again until it succeeds or the context
ends, `encodesFirst` that the payload is encoded before connecting, and
`skipsEmpty` that a payload without rows succeeds without a write.
-/
structure SinkNode (Conn : Type) where
  client : Client Conn
  retries : Bool
  encodesFirst : Bool
  skipsEmpty : Bool

def tcpOut : SinkNode Nat where
  client := netConn
  retries := false
  encodesFirst := true
  skipsEmpty := false

def sqlSink {Conn : Type} (pool : Client Conn) : SinkNode Conn where
  client := pool
  retries := true
  encodesFirst := false
  skipsEmpty := true

def mqttOut {Conn : Type} (client : Client Conn) : SinkNode Conn where
  client := client
  retries := true
  encodesFirst := false
  skipsEmpty := false

/--
The payload of a call: one that cannot be encoded or that the dialect does not
support, one without rows, and any other.
-/
inductive Request where
  | unfit
  | empty
  | data
  deriving DecidableEq, Repr

/-- `entered` is the number of outages at the beginning of a call that found the endpoint. -/
structure Call where
  request : Request
  entered : Option Nat
  outcome : Option Bool
  deriving DecidableEq, Repr

/-- The `sync.Once` with the connection, or the error as `none`. -/
inductive Once (Conn : Type) where
  | idle
  | running
  | done (result : Option Conn)
  deriving DecidableEq

/--
`outcomes` is the log of the fit calls that began since the endpoint came back and
have returned.
-/
structure Sink (Conn : Type) where
  remote : Remote
  ctxDone : Bool
  once : Once Conn
  calls : List Call
  outcomes : List Bool
  deriving DecidableEq

inductive SinkAction where
  | goDown
  | goUp
  | cancel
  | call (request : Request)
  | connect
  | advance (index : Nat)
  deriving DecidableEq, Repr

namespace Sink

variable {Conn : Type}

def start (reachable : Bool) : Sink Conn := ⟨⟨reachable, 0⟩, false, .idle, [], []⟩

def counts (s : Sink Conn) (c : Call) : Bool :=
  c.request ≠ .unfit ∧ c.entered = some s.remote.outages ∧ s.remote.reachable ∧ ¬ s.ctxDone

def finish (s : Sink Conn) (index : Nat) (c : Call) (ok : Bool) : Sink Conn :=
  { s with
    calls := s.calls.set index { c with outcome := some ok }
    outcomes := if s.counts c then s.outcomes ++ [ok] else s.outcomes }

/-- What `Process` does with its connection, or with the error of connecting. -/
def proceed (node : SinkNode Conn) (s : Sink Conn) (index : Nat) (c : Call) :
    Option Conn → Sink Conn
  | none => s.finish index c false
  | some conn =>
    if c.request = .unfit then s.finish index c false
    else if c.request = .empty ∧ node.skipsEmpty then s.finish index c true
    else
      let result := node.client.write s.remote conn
      { s with once := .done (some result.2) }.finish index c result.1

/-- One attempt inside `connectOnce.Do`. -/
def attempt (node : SinkNode Conn) (s : Sink Conn) : Sink Conn :=
  if s.ctxDone then { s with once := .done none }
  else
    match node.client.connect s.remote with
    | some conn => { s with once := .done (some conn) }
    | none => if node.retries then s else { s with once := .done none }

def period (s : Sink Conn) : Option Nat :=
  if s.remote.reachable then some s.remote.outages else none

def enter (node : SinkNode Conn) (s : Sink Conn) (request : Request) : Sink Conn :=
  if node.encodesFirst ∧ request = .unfit then
    { s with calls := s.calls ++ [⟨request, s.period, some false⟩] }
  else
    { s with
      once := match s.once with
        | .idle => .running
        | once => once
      calls := s.calls ++ [⟨request, s.period, none⟩] }

def step (node : SinkNode Conn) (s : Sink Conn) : SinkAction → Option (Sink Conn)
  | .goDown =>
    if s.remote.reachable then
      some { s with remote := ⟨false, s.remote.outages + 1⟩, outcomes := [] }
    else none
  | .goUp =>
    if s.remote.reachable then none
    else some { s with remote := { s.remote with reachable := true } }
  | .cancel => some { s with ctxDone := true }
  | .call request => some (s.enter node request)
  | .connect =>
    match s.once with
    | .running => some (s.attempt node)
    | _ => none
  | .advance index =>
    match s.once, s.calls[index]? with
    | .done result, some c =>
      if c.outcome = none then some (s.proceed node index c result) else none
    | _, _ => none

def progress : SinkAction → Bool
  | .connect | .advance _ => true
  | _ => false

def pending (s : Sink Conn) : Nat := s.calls.countP fun c => c.outcome.isNone

def rank (s : Sink Conn) : Nat :=
  s.pending + match s.once with
    | .running => 1
    | _ => 0

/--
While the endpoint stays reachable every call returns, and once a call has failed
all the following ones succeed.
-/
structure Recovers (node : SinkNode Conn) (s : Sink Conn) : Prop where
  heals : s.outcomes.count false ≤ 1
  returns : s.remote.reachable = true → s.ctxDone = false → ∀ actions s',
    (∀ action ∈ actions, progress action = true) → run (step node) s actions = some s' →
      actions.length ≤ s.rank ∧
        ((∀ action, progress action = true → s'.step node action = none) → s'.pending = 0)

/-- The connection of a node that was not stopped is there, and a failed write mends it. -/
structure Ready (node : SinkNode Conn) (s : Sink Conn) : Prop where
  connected : s.ctxDone = false → s.once ≠ .done none
  mends : s.ctxDone = false → s.remote.reachable = true → ∀ conn, s.once = .done (some conn) →
    ¬ node.client.Works s.remote conn →
      node.client.Works s.remote (node.client.write s.remote conn).2

structure Sound (node : SinkNode Conn) (s : Sink Conn) : Prop where
  waiting : s.once = .idle → s.pending = 0
  down : s.remote.reachable = false → s.outcomes = []
  heals : s.outcomes.count false ≤ 1
  mended : s.ctxDone = false → false ∈ s.outcomes →
    ∃ conn, s.once = .done (some conn) ∧ node.client.Works s.remote conn

variable {node : SinkNode Conn} {s s' : Sink Conn}

inductive Moves (node : SinkNode Conn) (s : Sink Conn) : SinkAction → Sink Conn → Prop where
  | goDown (hup : s.remote.reachable = true) : Moves node s .goDown
      { s with remote := ⟨false, s.remote.outages + 1⟩, outcomes := [] }
  | goUp (hdown : s.remote.reachable = false) : Moves node s .goUp
      { s with remote := { s.remote with reachable := true } }
  | cancel : Moves node s .cancel { s with ctxDone := true }
  | call (request : Request) : Moves node s (.call request) (s.enter node request)
  | connect (honce : s.once = .running) : Moves node s .connect (s.attempt node)
  | advance {index : Nat} {c : Call} {result : Option Conn} (honce : s.once = .done result)
      (hc : s.calls[index]? = some c) (hnone : c.outcome = none) :
      Moves node s (.advance index) (s.proceed node index c result)

variable {index : Nat} {c : Call} {action : SinkAction}

theorem moves_of_step (hstep : s.step node action = some s') : Moves node s action s' := by
  revert hstep
  fun_cases s.step node action <;> rintro ⟨⟩
  next hup => exact .goDown hup
  next hdown => exact .goUp (Bool.not_eq_true _ ▸ hdown)
  next => exact .cancel
  next request => exact .call request
  next honce => exact .connect honce
  next hc honce hnone => exact .advance honce hc hnone

/-! ### Every call returns -/

theorem pending_finish (hc : s.calls[index]? = some c) (hnone : c.outcome = none) (ok : Bool) :
    (s.finish index c ok).pending + 1 = s.pending := by
  obtain ⟨hlt, rfl⟩ := List.getElem?_eq_some_iff.mp hc
  have hpos : 0 < s.calls.countP fun c => c.outcome.isNone :=
    List.countP_pos_iff.mpr ⟨_, List.getElem_mem hlt, by simp [hnone]⟩
  unfold pending finish
  rw [List.countP_set hlt]
  simp only [hnone, Option.isNone_none, if_true, Option.isNone_some, Bool.false_eq_true, if_false]
  omega

theorem pending_proceed (hc : s.calls[index]? = some c) (hnone : c.outcome = none)
    (result : Option Conn) : (s.proceed node index c result).pending + 1 = s.pending := by
  fun_cases s.proceed node index c result
  case case4 => exact @pending_finish _ { s with once := _ } index c hc hnone _
  all_goals exact pending_finish hc hnone _

variable {result : Option Conn}

theorem proceed_once (honce : s.once = .done result) :
    ∃ result', (s.proceed node index c result).once = .done result' ∧
      result'.isSome = result.isSome := by
  fun_cases s.proceed node index c result
  case case4 => exact ⟨_, rfl, rfl⟩
  all_goals exact ⟨_, honce, rfl⟩

theorem proceed_env :
    (s.proceed node index c result).remote = s.remote ∧
      (s.proceed node index c result).ctxDone = s.ctxDone := by
  fun_cases s.proceed node index c result <;> exact ⟨rfl, rfl⟩

theorem rank_progress (hlaw : node.client.Lawful) (hprogress : progress action = true)
    (hup : s.remote.reachable = true) (halive : s.ctxDone = false)
    (hstep : s.step node action = some s') :
    s'.rank < s.rank ∧ s'.remote = s.remote ∧ s'.ctxDone = false ∧ s'.once ≠ .idle := by
  cases moves_of_step hstep with
  | connect honce =>
    obtain ⟨conn, hconn⟩ := hlaw.connects s.remote hup
    simp only [attempt, halive, Bool.false_eq_true, if_false, hconn]
    refine ⟨?_, trivial, trivial, by simp⟩
    simp only [rank, honce, pending]
    omega
  | @advance index c result honce hc hnone =>
    obtain ⟨result', honce', -⟩ := @proceed_once _ node s index c result honce
    obtain ⟨hremote, hctx⟩ := @proceed_env _ node s index c result
    have hpending := @pending_proceed _ node s index c hc hnone result
    refine ⟨?_, hremote, hctx.trans halive, by simp [honce']⟩
    simp only [rank, honce']
    omega
  | goDown | goUp | cancel | call => contradiction

theorem pending_of_stuck (hwaiting : s.once = .idle → s.pending = 0)
    (hstuck : ∀ action, progress action = true → s.step node action = none) : s.pending = 0 := by
  cases honce : s.once with
  | idle => exact hwaiting honce
  | running =>
    have hnone := hstuck .connect rfl
    simp [step, honce] at hnone
  | done result =>
    refine List.countP_eq_zero.mpr ?_
    intro c hc hpending
    obtain ⟨index, hindex⟩ := List.mem_iff_getElem?.mp hc
    have hnone := hstuck (.advance index) rfl
    simp [step, honce, hindex, Option.isNone_iff_eq_none.mp hpending] at hnone

theorem returns_of_lawful (hlaw : node.client.Lawful) {actions : List SinkAction}
    (hwaiting : s.once = .idle → s.pending = 0) (hup : s.remote.reachable = true)
    (halive : s.ctxDone = false) (hall : ∀ action ∈ actions, progress action = true)
    (hrun : run (step node) s actions = some s') :
    actions.length ≤ s.rank ∧
      ((∀ action, progress action = true → s'.step node action = none) → s'.pending = 0) := by
  induction actions generalizing s with
  | nil =>
    rw [run_nil, Option.some.injEq] at hrun
    subst hrun
    exact ⟨Nat.zero_le _, pending_of_stuck hwaiting⟩
  | cons action actions ih =>
    obtain ⟨next, hnext, hrest⟩ := run_cons_eq_some.mp hrun
    obtain ⟨hlower, hremote, hctx, honce⟩ :=
      rank_progress hlaw (hall action List.mem_cons_self) hup halive hnext
    obtain ⟨hlength, hend⟩ := ih (fun h => absurd h honce) (hremote ▸ hup) hctx
      (fun other hother => hall other (List.mem_cons_of_mem _ hother)) hrest
    refine ⟨?_, hend⟩
    rw [List.length_cons]
    omega

/-! ### A failed call mends the connection -/

theorem sound_finish {ok : Bool} (hs : s.Sound node) (honce : s.once ≠ .idle)
    (hfails : s.counts c = true → ok = false → false ∉ s.outcomes ∧
      ∃ conn, s.once = .done (some conn) ∧ node.client.Works s.remote conn) :
    (s.finish index c ok).Sound node := by
  unfold finish
  split
  case isFalse => exact ⟨fun h => absurd h honce, hs.down, hs.heals, hs.mended⟩
  case isTrue hcounts =>
    refine ⟨fun h => absurd h honce, ?_, ?_, ?_⟩
    · intro hdown
      dsimp only at hdown
      simp [counts, hdown] at hcounts
    · cases ok with
      | false =>
        have hnone := List.count_eq_zero.mpr (hfails hcounts rfl).1
        simp [hnone]
      | true => simpa using hs.heals
    · intro halive hmem
      cases ok with
      | false => exact (hfails hcounts rfl).2
      | true => exact hs.mended halive (by simpa using hmem)

theorem sound_proceed (hlaw : node.client.Lawful) (hs : s.Sound node) (hready : s.Ready node)
    (honce : s.once = .done result) : (s.proceed node index c result).Sound node := by
  have halive : s.counts c = true → s.remote.reachable = true ∧ s.ctxDone = false := by
    intro hcounts
    simp only [counts, decide_eq_true_eq, Bool.not_eq_true] at hcounts
    exact ⟨hcounts.2.2.1, hcounts.2.2.2⟩
  have hdone : s.once ≠ .idle := by simp [honce]
  fun_cases s.proceed node index c result
  next =>
    refine sound_finish hs hdone ?_
    intro hcounts _
    exact absurd honce (hready.connected (halive hcounts).2)
  next hunfit =>
    refine sound_finish hs hdone ?_
    intro hcounts
    simp [counts, hunfit] at hcounts
  next =>
    refine sound_finish hs hdone ?_
    intro _ hfalse
    contradiction
  next conn _ _ result =>
    have hmended : s.ctxDone = false → false ∈ s.outcomes → node.client.Works s.remote conn := by
      intro hctx hmem
      obtain ⟨found, hfound, hworks⟩ := hs.mended hctx hmem
      rw [honce] at hfound
      cases hfound
      exact hworks
    have hkept : Sound node { s with once := .done (some result.2) } :=
      ⟨nofun, hs.down, hs.heals, fun hctx hmem => ⟨_, rfl, hlaw.keeps _ _ (hmended hctx hmem)⟩⟩
    refine sound_finish hkept (by simp) ?_
    intro hcounts hfails
    obtain ⟨hup, hctx⟩ := halive hcounts
    have hbroken : ¬ node.client.Works s.remote conn := by
      rw [Client.Works, hfails]
      exact Bool.false_ne_true
    exact ⟨fun hmem => hbroken (hmended hctx hmem), _, rfl,
      hready.mends hctx hup conn honce hbroken⟩

theorem sound_enter (hs : s.Sound node) (request : Request) :
    (s.enter node request).Sound node := by
  unfold enter
  split
  · refine ⟨?_, hs.down, hs.heals, hs.mended⟩
    intro honce
    have hold := hs.waiting honce
    simp only [pending] at hold ⊢
    simp [hold]
  · refine ⟨?_, hs.down, hs.heals, ?_⟩
    · intro honce
      split at honce
      · contradiction
      next hnot => exact absurd honce hnot
    · intro hctx hmem
      obtain ⟨conn, hconn, hworks⟩ := hs.mended hctx hmem
      exact ⟨conn, by simp [hconn], hworks⟩

theorem sound_attempt (hs : s.Sound node) (honce : s.once = .running) :
    (s.attempt node).Sound node := by
  have hclean : s.ctxDone = false → false ∉ s.outcomes := by
    intro hctx hmem
    obtain ⟨conn, hconn, -⟩ := hs.mended hctx hmem
    rw [honce] at hconn
    contradiction
  have hdone : ∀ result, Sound node { s with once := .done result } := fun result =>
    ⟨nofun, hs.down, hs.heals, fun hctx hmem => absurd hmem (hclean hctx)⟩
  fun_cases s.attempt node
  case case3 => exact hs
  all_goals exact hdone _

theorem sound_step (hlaw : node.client.Lawful) (hs : s.Sound node) (hready : s.Ready node)
    (hstep : s.step node action = some s') : s'.Sound node := by
  cases moves_of_step hstep with
  | goDown => exact ⟨hs.waiting, fun _ => rfl, by simp, by simp⟩
  | goUp hdown =>
    have hempty := hs.down hdown
    exact ⟨hs.waiting, nofun, hs.heals, fun _ hmem => by simp [hempty] at hmem⟩
  | cancel => exact ⟨hs.waiting, hs.down, hs.heals, nofun⟩
  | call request => exact sound_enter hs request
  | connect honce => exact sound_attempt hs honce
  | advance honce => exact sound_proceed hlaw hs hready honce

theorem sound_start (node : SinkNode Conn) (reachable : Bool) : (start reachable).Sound node :=
  ⟨fun _ => rfl, fun _ => rfl, by simp [start], by simp [start]⟩

theorem Sound.recovers (hlaw : node.client.Lawful) (hs : s.Sound node) : s.Recovers node where
  heals := hs.heals
  returns := fun hup halive _ _ hall hrun => returns_of_lawful hlaw hs.waiting hup halive hall hrun

/-! ### Nodes that reconnect -/

structure Connecting (node : SinkNode Conn) (s : Sink Conn) : Prop where
  sound : s.Sound node
  connected : s.ctxDone = false → s.once ≠ .done none

theorem Connecting.ready (hheals : node.client.Healing) (hs : s.Connecting node) : s.Ready node :=
  ⟨hs.connected, fun _ hup conn _ hbroken => hheals.heals s.remote conn hup hbroken⟩

theorem connecting_step (hheals : node.client.Healing) (hretries : node.retries = true)
    (hs : s.Connecting node) (hstep : s.step node action = some s') : s'.Connecting node := by
  refine ⟨sound_step hheals.toLawful hs.sound (hs.ready hheals) hstep, ?_⟩
  intro halive
  cases moves_of_step hstep with
  | goDown | goUp => exact hs.connected halive
  | cancel => contradiction
  | call request =>
    revert halive
    fun_cases s.enter node request
    next => exact hs.connected
    next =>
      intro halive
      have hnone := hs.connected halive
      cases honce : s.once <;> simp_all
  | connect honce =>
    revert halive
    fun_cases s.attempt node
    next hctx => simp [hctx]
    next => simp
    next => simp [honce]
    next hnot => exact absurd hretries hnot
  | @advance index c result honce =>
    rw [proceed_env.2] at halive
    obtain ⟨result', honce', hsome⟩ := @proceed_once _ node s index c result honce
    intro hnone
    rw [honce', Once.done.injEq] at hnone
    rw [hnone, Option.isSome_none, eq_comm, Option.isSome_eq_false_iff,
      Option.isNone_iff_eq_none] at hsome
    exact hs.connected halive (hsome ▸ honce)

/-! ### A connection that is dialled once -/

def steady (s : Sink Nat) : SinkAction → Bool
  | .connect => s.remote.reachable
  | .goDown =>
    match s.once with
    | .done _ => false
    | _ => true
  | _ => true

structure Undisturbed (s : Sink Nat) : Prop where
  sound : s.Sound tcpOut
  dialled : s.ctxDone = false → ∀ result, s.once = .done result →
    s.remote.reachable = true ∧ result = some s.remote.outages

theorem lawful_netConn : netConn.Lawful where
  connects := fun remote hup => ⟨remote.outages, by simp [netConn, hup]⟩
  keeps := fun _ _ hworks => hworks

variable {s : Sink Nat}

theorem Undisturbed.ready (hs : s.Undisturbed) : s.Ready tcpOut where
  connected := by
    intro halive honce
    have := (hs.dialled halive none honce).2
    contradiction
  mends := by
    intro halive hup conn honce hbroken
    obtain ⟨-, hconn⟩ := hs.dialled halive _ honce
    cases hconn
    simp [Client.Works, tcpOut, netConn, hup] at hbroken

theorem proceed_tcpOut {result : Option Nat} (honce : s.once = .done result) :
    (s.proceed tcpOut index c result).once = s.once := by
  fun_cases s.proceed tcpOut index c result
  case case4 => exact honce.symm
  all_goals rfl

theorem undisturbed_step {s' : Sink Nat} (hs : s.Undisturbed) (hok : s.steady action = true)
    (hstep : s.step tcpOut action = some s') : s'.Undisturbed := by
  refine ⟨sound_step lawful_netConn hs.sound hs.ready hstep, ?_⟩
  intro halive result honce'
  cases moves_of_step hstep with
  | goDown =>
    dsimp only at honce'
    simp [steady, honce'] at hok
  | goUp => exact ⟨rfl, (hs.dialled halive result honce').2⟩
  | cancel => contradiction
  | call request =>
    revert halive honce'
    fun_cases s.enter tcpOut request
    next => exact fun halive => hs.dialled halive result
    next =>
      intro halive honce'
      split at honce'
      · contradiction
      · exact hs.dialled halive result honce'
  | connect =>
    have hup : s.remote.reachable = true := hok
    revert halive honce'
    fun_cases s.attempt tcpOut
    next hctx => simp [hctx]
    next hconn =>
      simp only [tcpOut, netConn, hup, if_true] at hconn
      rintro - ⟨⟩
      exact ⟨hup, by rw [hconn]⟩
    all_goals
      rename_i hnone _
      simp [tcpOut, netConn, hup] at hnone
  | advance honce =>
    rw [proceed_env.2] at halive
    rw [proceed_tcpOut honce] at honce'
    rw [proceed_env.1]
    exact hs.dialled halive result honce'

end Sink

/--
With libraries that reconnect as documented, `sql-sink` and `mqtt-out` recover
from every outage; `tcp-out` does as long as it meets none.
-/
theorem sinks_recover {Pooled Session : Type} (pool : Client Pooled) (hpool : pool.Healing)
    (session : Client Session) (hsession : session.Healing) (reachable : Bool)
    (actions : List SinkAction) :
    (∀ s, Meets (Sink.step tcpOut) (fun s action => s.steady action = true)
        (.start reachable) actions →
      run (Sink.step tcpOut) (.start reachable) actions = some s → s.Recovers tcpOut) ∧
    (∀ s, run (Sink.step (sqlSink pool)) (.start reachable) actions = some s →
      s.Recovers (sqlSink pool)) ∧
    ∀ s, run (Sink.step (mqttOut session)) (.start reachable) actions = some s →
      s.Recovers (mqttOut session) := by
  refine ⟨?_, ?_, ?_⟩
  · intro s hmeets hrun
    have hinit : Sink.Undisturbed (.start reachable) :=
      ⟨Sink.sound_start tcpOut reachable, by simp [Sink.start]⟩
    have hend := run_invariant_of_meets Sink.undisturbed_step hinit hmeets hrun
    exact hend.sound.recovers Sink.lawful_netConn
  · intro s hrun
    have hinit : Sink.Connecting (sqlSink pool) (.start reachable) :=
      ⟨Sink.sound_start _ reachable, by simp [Sink.start]⟩
    have hend := run_invariant (Sink.connecting_step hpool rfl) hinit hrun
    exact hend.sound.recovers hpool.toLawful
  · intro s hrun
    have hinit : Sink.Connecting (mqttOut session) (.start reachable) :=
      ⟨Sink.sound_start _ reachable, by simp [Sink.start]⟩
    have hend := run_invariant (Sink.connecting_step hsession rfl) hinit hrun
    exact hend.sound.recovers hsession.toLawful

def redialling : Client Nat where
  connect := netConn.connect
  write remote dialled :=
    ((netConn.write remote dialled).1, if remote.reachable then remote.outages else dialled)

theorem healing_redialling : redialling.Healing where
  connects := Sink.lawful_netConn.connects
  keeps := by
    intro remote conn hworks
    simp only [Client.Works, redialling, netConn, Bool.and_eq_true] at hworks ⊢
    simp [hworks.1]
  heals := by
    intro remote conn hup _
    simp [Client.Works, redialling, netConn, hup]

def outageAfterDial : List SinkAction :=
  [.call .data, .connect, .advance 0, .goDown, .call .data, .advance 1, .goUp,
    .call .data, .advance 2, .call .data, .advance 3]

def dialUnderOutage : List SinkAction :=
  [.call .data, .connect, .advance 0, .goUp, .call .data, .advance 1, .call .data, .advance 2]

theorem sinks_recover_outage :
    (∃ s, run (Sink.step tcpOut) (.start true) [.call .data, .connect, .advance 0] = some s ∧
      s.outcomes = [true] ∧ s.Recovers tcpOut) ∧
    (∃ s, run (Sink.step (sqlSink redialling)) (.start true) outageAfterDial = some s ∧
      s.outcomes = [false, true] ∧ s.Recovers (sqlSink redialling)) ∧
    ∃ s, run (Sink.step (mqttOut redialling)) (.start true) outageAfterDial = some s ∧
      s.outcomes = [false, true] ∧ s.Recovers (mqttOut redialling) := by
  have hcalm := sinks_recover redialling healing_redialling redialling healing_redialling true
    [.call .data, .connect, .advance 0]
  have houtage := sinks_recover redialling healing_redialling redialling healing_redialling true
    outageAfterDial
  exact ⟨exists_some_and (by decide) fun s hrun _ => hcalm.1 s (by decide) hrun,
    exists_some_and (by decide) fun s hrun _ => houtage.2.1 s hrun,
    exists_some_and (by decide) fun s hrun _ => houtage.2.2 s hrun⟩

theorem not_recovers_of_outcomes {reachable : Bool} {actions : List SinkAction}
    (hany : (run (Sink.step tcpOut) (.start reachable) actions).any
      (fun s => s.outcomes == [false, false]) = true) :
    ¬ ∀ s, run (Sink.step tcpOut) (.start reachable) actions = some s → s.Recovers tcpOut := by
  intro hall
  obtain ⟨s, hrun, hlog⟩ := (Option.any_eq_true _ _).mp hany
  have hheals := (hall s hrun).heals
  rw [eq_of_beq hlog] at hheals
  exact absurd hheals (by decide)

/--
`tcp-out` keeps a connection that an outage broke, and the error of a dial that
found the endpoint down: all later calls fail.
-/
theorem tcpOut_stays_broken :
    (¬ ∀ s, run (Sink.step tcpOut) (.start true) outageAfterDial = some s →
      s.Recovers tcpOut) ∧
    ¬ ∀ s, run (Sink.step tcpOut) (.start false) dialUnderOutage = some s →
      s.Recovers tcpOut :=
  ⟨not_recovers_of_outcomes (by decide), not_recovers_of_outcomes (by decide)⟩

end DataPipe.Nodes
