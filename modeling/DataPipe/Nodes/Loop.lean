import DataPipe.Foundation.Json
import DataPipe.Foundation.Run

/-!
# Iteration over the items of an array

The `loop` node, `engine/nodes/loop/loop.go`, with the flow that leads from its loop port back
to its input.  A datagram that comes back is known by its correlation id only: it continues the
session with this id, or starts one if there is none.
-/

set_option linter.dupNamespace false

namespace DataPipe.Nodes.Loop

open DataPipe.Foundation

structure Config where
  itemsField : String
  maxIterations : Int
  deriving DecidableEq, Repr

def defaultMaxIterations : Int := 100000

/-- `New`, after the configuration has been read -/
def Config.new (cfg : Config) : Config :=
  if cfg.maxIterations ≤ 0 then { cfg with maxIterations := defaultMaxIterations } else cfg

def fieldValue (item : Json) (path : String) : Json :=
  if path = "" then item
  else
    (path.toList.splitOn '.').foldl (fun cur key =>
      match cur with
      | .obj fields => (fields.lookup (String.ofList key)).getD .null
      | _ => .null) item

def asArray : Json → Option (List Json)
  | .arr items => some items
  | _ => none

structure Session where
  items : List Json
  index : Nat

inductive Output where
  | loop (item : Json)
  | done (count : Nat)

inductive ProcessError where
  | notArray (field : String) (value : Json)

def startSession (cfg : Config) (payload : Json) : Option Session × Except ProcessError Output :=
  let value := fieldValue payload cfg.itemsField
  match asArray value with
  | none => (none, .error (.notArray cfg.itemsField value))
  | some [] => (none, .ok (.done 0))
  | some (item :: items) => (some ⟨item :: items, 0⟩, .ok (.loop item))

def continueSession (cfg : Config) (session : Session) :
    Option Session × Except ProcessError Output :=
  let index := session.index + 1
  match session.items[index]? with
  | none => (none, .ok (.done session.items.length))
  | some item =>
    if cfg.maxIterations ≤ index then (none, .ok (.done session.items.length))
    else (some { session with index }, .ok (.loop item))

/-- `Process`: the session with the correlation id of the datagram, if there is one, before and
after the call. -/
def process (cfg : Config) : Option Session → Json → Option Session × Except ProcessError Output
  | none, payload => startSession cfg payload
  | some session, _ => continueSession cfg session

/-- The datagrams with one correlation id: the trigger, how many have come back, those on their
way back and the outputs of the node. -/
structure Lane where
  session : Option Session := none
  trigger : Option Json := none
  returned : Nat := 0
  pending : List Json := []
  outputs : List Output := []

namespace Lane

/-- The body is the flow behind the loop port: what it returns for an output may depend on all
outputs so far. -/
def receive (cfg : Config) (body : List Output → List Json) (lane : Lane) (payload : Json) : Lane :=
  match process cfg lane.session payload with
  | (session, .error _) => { lane with session }
  | (session, .ok (.done count)) =>
    { lane with session, outputs := lane.outputs ++ [.done count] }
  | (session, .ok (.loop item)) =>
    let outputs := lane.outputs ++ [.loop item]
    { lane with session, outputs, pending := lane.pending ++ body outputs }

/-- Of the datagrams on their way back, any one is the next. -/
def returns (cfg : Config) (body : List Output → List Json) (lane : Lane) (i : Nat) : Option Lane :=
  match lane.pending[i]? with
  | none => none
  | some payload =>
    some ({ lane with
      pending := lane.pending.eraseIdx i
      returned := lane.returned + 1 }.receive cfg body payload)

end Lane

inductive Arrival where
  | trigger (payload : Json)
  | returns (i : Nat)

def Lane.step (cfg : Config) (body : List Output → List Json) (lane : Lane) :
    Arrival → Option Lane
  | .trigger payload =>
    if lane.trigger.isSome then none
    else some ({ lane with trigger := some payload }.receive cfg body payload)
  | .returns i => lane.returns cfg body i

def step (cfg : Config) (body : String → List Output → List Json) (lanes : String → Lane)
    (arrival : String × Arrival) : Option (String → Lane) :=
  ((lanes arrival.1).step cfg (body arrival.1) arrival.2).map (Function.update lanes arrival.1)

/-! ## Each output comes back once -/

def Config.iterations (cfg : Config) (items : List Json) : Nat :=
  min items.length cfg.maxIterations.toNat

def Config.expected (cfg : Config) (items : List Json) : List Output :=
  (items.take (cfg.iterations items)).map .loop ++ [.done items.length]

inductive OnTrack (cfg : Config) : Lane → Prop where
  | idle : OnTrack cfg {}
  | rejected {payload : Json} (h : asArray (fieldValue payload cfg.itemsField) = none) :
    OnTrack cfg { trigger := some payload }
  | underway {payload next : Json} {items : List Json} {k : Nat}
    (h : asArray (fieldValue payload cfg.itemsField) = some items)
    (hk : k < cfg.iterations items) :
    OnTrack cfg ⟨some ⟨items, k⟩, some payload, k, [next], (items.take (k + 1)).map .loop⟩
  | finished {payload : Json} {items : List Json}
    (h : asArray (fieldValue payload cfg.itemsField) = some items) :
    OnTrack cfg ⟨none, some payload, cfg.iterations items, [], cfg.expected items⟩

theorem Config.new_pos (raw : Config) : 0 < raw.new.maxIterations := by
  unfold Config.new defaultMaxIterations
  split <;> simp_all

variable {cfg : Config} {body : List Output → List Json} {lane lane' : Lane}

theorem OnTrack.start (hmax : 0 < cfg.maxIterations)
    (hbody : ∀ outputs, ∃ next, body outputs = [next]) (payload : Json) :
    OnTrack cfg (Lane.receive cfg body { trigger := some payload } payload) := by
  simp only [Lane.receive, process, startSession]
  cases harray : asArray (fieldValue payload cfg.itemsField) with
  | none => exact .rejected harray
  | some items =>
    cases items with
    | nil => simpa [Config.expected, Config.iterations] using OnTrack.finished harray
    | cons item items =>
      obtain ⟨next, hnext⟩ := hbody [.loop item]
      have hfirst : 0 < cfg.iterations (item :: items) := by
        rw [Config.iterations, List.length_cons]
        omega
      simpa [hnext] using @OnTrack.underway _ _ next _ _ harray hfirst

variable {payload : Json}

theorem OnTrack.continue (hbody : ∀ outputs, ∃ next, body outputs = [next]) {items : List Json}
    {k : Nat} (h : asArray (fieldValue payload cfg.itemsField) = some items)
    (hk : k < cfg.iterations items) (next : Json) :
    OnTrack cfg (Lane.receive cfg body
      ⟨some ⟨items, k⟩, some payload, k + 1, [], (items.take (k + 1)).map .loop⟩ next) := by
  have hlast : k + 1 = cfg.iterations items → OnTrack cfg ⟨none, some payload, k + 1, [],
      (items.take (k + 1)).map .loop ++ [.done items.length]⟩ := by
    intro hlast
    rw [hlast]
    exact .finished h
  simp only [Lane.receive, process, continueSession]
  unfold Config.iterations at hk hlast
  cases hitem : items[k + 1]? with
  | none =>
    rw [List.getElem?_eq_none_iff] at hitem
    exact hlast (by omega)
  | some item =>
    obtain ⟨hlt, rfl⟩ := List.getElem?_eq_some_iff.mp hitem
    by_cases hcapped : cfg.maxIterations ≤ ↑(k + 1)
    · simpa only [hcapped, if_true] using hlast (by omega)
    · obtain ⟨after, hafter⟩ := hbody ((items.take (k + 1)).map .loop ++ [.loop items[k + 1]])
      have hmore : k + 1 < cfg.iterations items := by
        rw [Config.iterations]
        omega
      have hnext := @OnTrack.underway _ _ after _ _ h hmore
      rw [List.take_succ_eq_append_getElem hlt, List.map_append, List.map_singleton] at hnext
      simpa only [hcapped, if_false, hafter, List.nil_append] using hnext

theorem OnTrack.step (hmax : 0 < cfg.maxIterations)
    (hbody : ∀ outputs, ∃ next, body outputs = [next]) (hlane : OnTrack cfg lane)
    {arrival : Arrival} (h : lane.step cfg body arrival = some lane') : OnTrack cfg lane' := by
  cases arrival with
  | trigger payload =>
    cases hlane with
    | idle =>
      cases h
      exact .start hmax hbody payload
    | rejected | underway | finished => cases h
  | returns i =>
    cases hlane with
    | idle | rejected | finished => cases h
    | underway harray hk =>
      cases i with
      | zero =>
        cases h
        exact .continue hbody harray hk _
      | succ i => cases h

/--
If the flow behind the loop port returns every output once, a lane whose trigger carries an array
has got the first outputs expected for it, one more than have come back, and all of them and no
session any more when none is on its way.
-/
theorem loop_iterates_exactly (raw : Config) {body : String → List Output → List Json}
    (hbody : ∀ id outputs, ∃ next, body id outputs = [next]) {arrivals : List (String × Arrival)}
    {lanes : String → Lane}
    (hrun : run (step raw.new body) (fun _ => {}) arrivals = some lanes) {corrID : String}
    {payload : Json} {items : List Json} (htrigger : (lanes corrID).trigger = some payload)
    (hitems : asArray (fieldValue payload raw.new.itemsField) = some items) :
    (lanes corrID).outputs = (raw.new.expected items).take ((lanes corrID).returned + 1) ∧
      ((lanes corrID).pending = [] →
        (lanes corrID).outputs = raw.new.expected items ∧ (lanes corrID).session = none) := by
  have hstep : ∀ {lanes arrival lanes'}, (∀ id, OnTrack raw.new (lanes id)) →
      step raw.new body lanes arrival = some lanes' → ∀ id, OnTrack raw.new (lanes' id) := by
    intro lanes arrival lanes' hs h id
    obtain ⟨next, hnext, rfl⟩ := Option.map_eq_some_iff.mp h
    rw [Function.update_apply]
    split
    · exact (hs _).step raw.new_pos (hbody _) hnext
    · exact hs id
  have hlane := run_invariant hstep (fun _ => .idle) hrun corrID
  generalize lanes corrID = lane at hlane htrigger
  cases hlane with
  | idle => cases htrigger
  | rejected h =>
    cases htrigger
    rw [h] at hitems
    cases hitems
  | underway h hk =>
    cases htrigger
    obtain rfl := Option.some.inj (h.symm.trans hitems)
    refine ⟨?_, nofun⟩
    rw [Config.expected, List.take_append_of_le_length (by simp [Config.iterations] at *; omega),
      ← List.map_take, List.take_take, Nat.min_eq_left hk]
  | finished h =>
    cases htrigger
    obtain rfl := Option.some.inj (h.symm.trans hitems)
    exact ⟨(List.take_of_length_le (by simp [Config.expected, Config.iterations])).symm,
      fun _ => ⟨rfl, rfl⟩⟩

def twoSessions : List (String × Arrival) :=
  [("a", .trigger (.arr [.bool true, .bool false])), ("b", .trigger (.arr [.null])),
    ("a", .returns 0), ("b", .returns 0), ("a", .returns 0)]

theorem two_sessions_iterated :
    ∃ lanes, run (step (Config.new ⟨"", 0⟩) fun _ _ => [.arr [.null]]) (fun _ => {})
        twoSessions = some lanes ∧
      (lanes "a").outputs = [.loop (.bool true), .loop (.bool false), .done 2] ∧
      (lanes "a").session = none :=
  ⟨_, rfl, (@loop_iterates_exactly ⟨"", 0⟩ _ (fun _ _ => ⟨_, rfl⟩) twoSessions _ rfl "a" _ _ rfl
    rfl).2 rfl⟩

/-! ## Arbitrary loop-back flows -/

/-- A datagram that comes back starts no session. -/
def Lane.noRestart (cfg : Config) (lane : Lane) (i : Nat) : Bool :=
  lane.session.isSome || lane.pending[i]?.all fun payload =>
    (asArray (fieldValue payload cfg.itemsField)).all List.isEmpty

def Lane.looped (lane : Lane) : List Output :=
  lane.outputs.filter fun output => output matches .loop _

structure Capped (cfg : Config) (lane : Lane) : Prop where
  bounded : lane.looped.length ≤ cfg.maxIterations
  counted : ∀ session ∈ lane.session, lane.looped.length = session.index + 1

theorem Capped.receive (h : Capped cfg lane) (hmax : 0 < cfg.maxIterations)
    (hstart : lane.session = none → lane.outputs = [] ∨
      (asArray (fieldValue payload cfg.itemsField)).all List.isEmpty) :
    Capped cfg (lane.receive cfg body payload) := by
  have hdone : ∀ count, Capped cfg
      { lane with session := none, outputs := lane.outputs ++ [.done count] } :=
    fun count => ⟨by simpa [Lane.looped] using h.bounded, by simp⟩
  unfold Lane.receive
  cases hsession : lane.session with
  | none =>
    simp only [process, startSession]
    cases harray : asArray (fieldValue payload cfg.itemsField) with
    | none => exact ⟨h.bounded, by simp⟩
    | some items =>
      cases items with
      | nil => exact hdone 0
      | cons item items =>
        have hempty := (hstart hsession).resolve_right (by simp [harray])
        constructor <;> simp [Lane.looped, hempty]
        omega
  | some session =>
    have hcounted := h.counted session hsession
    simp only [process, continueSession]
    cases hitem : session.items[session.index + 1]? with
    | none => exact hdone _
    | some item =>
      by_cases hcapped : cfg.maxIterations ≤ ↑(session.index + 1)
      · simpa only [hcapped, if_true] using hdone _
      · simp only [hcapped]
        constructor <;> simp [Lane.looped] at * <;> omega

/-- The lane after a trigger and then the given arrivals. -/
def fed (cfg : Config) (body : List Output → List Json) (trigger : Json) (arrivals : List Nat) :
    Option Lane :=
  run (Lane.returns cfg body) (Lane.receive cfg body {} trigger) arrivals

/--
Whatever the flow behind the loop port returns, the outputs on the loop port in consequence of a
trigger are at most `maxIterations` as long as no datagram that comes back starts a session.
-/
theorem loop_bounded_of_noRestart (raw : Config) (body : List Output → List Json) (trigger : Json)
    (arrivals : List Nat) {lane : Lane}
    (hmeets : Meets (Lane.returns raw.new body) (Lane.noRestart raw.new · ·)
      (Lane.receive raw.new body {} trigger) arrivals)
    (hfed : fed raw.new body trigger arrivals = some lane) :
    lane.looped.length ≤ raw.new.maxIterations := by
  have hmax := raw.new_pos
  have hnew : Capped raw.new {} := ⟨Int.le_of_lt hmax, by simp⟩
  have hstart : Capped raw.new (Lane.receive raw.new body {} trigger) :=
    hnew.receive hmax fun _ => .inl rfl
  refine (run_invariant_of_meets (fun {lane i next} h hok hnext => ?_) hstart hmeets hfed).bounded
  revert hnext
  fun_cases Lane.returns raw.new body lane i <;> rintro ⟨⟩
  next payload hpending =>
    have hkept : Capped raw.new { lane with
        pending := lane.pending.eraseIdx i, returned := lane.returned + 1 } := ⟨h.1, h.2⟩
    refine hkept.receive hmax fun hnone => .inr ?_
    simpa [Lane.noRestart, show lane.session = none from hnone, hpending] using hok

theorem doubled_nulls_bounded :
    ∃ lane, fed (Config.new ⟨"", 1⟩) (fun _ => [.null, .null]) (.arr [.null]) [0, 0] =
      some lane ∧ lane.looped.length ≤ (1 : Int) :=
  ⟨_, rfl, loop_bounded_of_noRestart ⟨"", 1⟩ (fun _ => [.null, .null]) (.arr [.null]) [0, 0]
    (by decide) rfl⟩

/-- Each output comes back twice, with an array: the second one finds no session. -/
theorem doubled_arrays_exceed_cap :
    ∃ lane, fed (Config.new ⟨"", 1⟩) (fun _ => [.arr [.null], .arr [.null]]) (.arr [.null])
      [0, 0] = some lane ∧ ¬ lane.looped.length ≤ (1 : Int) :=
  ⟨_, rfl, by decide⟩

end DataPipe.Nodes.Loop
