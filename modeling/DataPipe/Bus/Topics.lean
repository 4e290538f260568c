import DataPipe.Bus.Wire
import DataPipe.Foundation.Joined
import DataPipe.Foundation.Threads

/-!
# Named topics

The broker of `engine/topics/broker.go`, the `bus-in`, `bus-out` and `error-trigger`
nodes that use it, and the errors that a runner publishes.  Error topics share the
broker with user topics; which of them meet is decided level by level.
-/

namespace DataPipe.Bus.Topics

open DataPipe.Foundation

abbrev Level := List Char

/-- `strings.Split(topic, "/")`. -/
def levels (topic : String) : List Level := topic.toList.splitOn '/'

/-- The loop of `matchTopic` from some level on. -/
def matchFrom : List Level → List Level → Bool
  | [], topic => topic.isEmpty
  | p :: pattern, topic =>
    if p = ['#'] then true
    else
      match topic with
      | [] => false
      | t :: topic => (p = ['+'] || p = t) && matchFrom pattern topic

def matchTopic (pattern topic : String) : Bool := matchFrom (levels pattern) (levels topic)

abbrev Tags := List (String × String)

def tagsMatch (filter tags : Tags) : Bool :=
  filter.all fun (key, value) => (tags.lookup key).getD "" = value

def errorFlowTopic (flowID : String) : String :=
  if flowID = "*" then "$errors/#" else "$errors/" ++ flowID

def defaultSubscriberCapacity : Int := 256

def parseOverflow (spec : String) : OverflowPolicy :=
  if spec = "block" then .block
  else if spec = "dropNewest" then .dropNewest
  else .dropOldest

/-- A `bus-in` node that its factory accepted. -/
@[ext] structure BusIn where
  topic : String
  tags : Tags
  overflow : String
  topic_ne : topic ≠ ""

@[ext] structure BusOut where
  topic : String
  tags : Tags
  topic_ne : topic ≠ ""

@[ext] structure ErrorTrigger where
  flowID : String
  flowID_ne : flowID ≠ ""

instance : DecidableEq BusIn := fun _ _ => decidable_of_iff _ BusIn.ext_iff.symm

instance : DecidableEq BusOut := fun _ _ => decidable_of_iff _ BusOut.ext_iff.symm

instance : DecidableEq ErrorTrigger := fun _ _ => decidable_of_iff _ ErrorTrigger.ext_iff.symm

def BusIn.new (topic : String) (tags : Tags) (overflow : String) : Except String BusIn :=
  if h : topic = "" then .error "bus-in: topic is required"
  else .ok { topic, tags, overflow, topic_ne := h }

def BusOut.new (topic : String) (tags : Tags) : Except String BusOut :=
  if h : topic = "" then .error "bus-out: topic is required"
  else .ok { topic, tags, topic_ne := h }

def ErrorTrigger.new (flowID : String) : Except String ErrorTrigger :=
  if h : flowID = "" then .error "error-trigger: flowId is required"
  else .ok { flowID, flowID_ne := h }

inductive Subscriber where
  | busIn (node : BusIn)
  | errorTrigger (node : ErrorTrigger)
  deriving DecidableEq

inductive Publisher where
  | busOut (node : BusOut)
  | runner (target : String) (target_ne : target ≠ "")

theorem Publisher.busOut_eq_iff {a b : BusOut} : a = b ↔ Publisher.busOut a = .busOut b :=
  ⟨congrArg _, Publisher.busOut.inj⟩

theorem Publisher.runner_eq_iff {a b : String} {ha : a ≠ ""} {hb : b ≠ ""} :
    a = b ↔ Publisher.runner a ha = .runner b hb := by
  constructor
  · rintro rfl
    rfl
  · exact Publisher.runner.inj

theorem Publisher.busOut_ne_runner {a : BusOut} {b : String} {hb : b ≠ ""} :
    Publisher.busOut a ≠ .runner b hb := nofun

instance : DecidableEq Publisher
  | .busOut _, .busOut _ => decidable_of_iff _ Publisher.busOut_eq_iff
  | .runner _ _, .runner _ _ => decidable_of_iff _ Publisher.runner_eq_iff
  | .busOut _, .runner _ _ => isFalse Publisher.busOut_ne_runner
  | .runner _ _, .busOut _ => isFalse Publisher.busOut_ne_runner.symm

namespace Subscriber

def pattern : Subscriber → String
  | .busIn node => node.topic
  | .errorTrigger node => errorFlowTopic node.flowID

def filter : Subscriber → Tags
  | .busIn node => node.tags
  | .errorTrigger _ => []

def wireConfig : Subscriber → WireConfig
  | .busIn node => ⟨defaultSubscriberCapacity, parseOverflow node.overflow, 0⟩
  | .errorTrigger _ => ⟨defaultSubscriberCapacity, .dropOldest, 0⟩

end Subscriber

namespace Publisher

def topic : Publisher → String
  | .busOut node => node.topic
  | .runner target _ => errorFlowTopic target

def tags : Publisher → Tags
  | .busOut node => node.tags
  | .runner _ _ => []

end Publisher

def receives (subscriber : Subscriber) (publisher : Publisher) : Bool :=
  matchTopic subscriber.pattern publisher.topic && tagsMatch subscriber.filter publisher.tags

structure Subscription (α : Type) where
  subscriber : Subscriber
  wire : Wire α
  active : Bool

/-- A call of `Publish` that has collected its matches and sends to them one by one. -/
structure Publishing (α : Type) where
  publisher : Publisher
  dgm : α
  matched : List Nat

structure Broker (α : Type) where
  subs : List (Subscription α) := []
  publishing : List (Publishing α) := []
  delivered : List (Publisher × Subscriber × α) := []

inductive Action (α : Type) where
  | subscribe (subscriber : Subscriber)
  | cancel (index : Nat)
  | publish (publisher : Publisher) (dgm : α) (order : List Nat)
  | send (index : Nat) (ctxDone : Bool)
  | receive (index : Nat) (ctxDone : Bool)

namespace Broker

variable {α : Type}

/-- The subscriptions that `Publish` collects under the lock. -/
def matching (broker : Broker α) (publisher : Publisher) : List Nat :=
  (List.range broker.subs.length).filter fun index =>
    (broker.subs[index]?).any fun sub => sub.active && receives sub.subscriber publisher

variable [Inhabited α]

def step (broker : Broker α) : Action α → Option (Broker α)
  | .subscribe subscriber =>
    some { broker with
      subs := broker.subs ++ [⟨subscriber, Wire.newWire subscriber.wireConfig, true⟩] }
  | .cancel index => do
    let sub ← broker.subs[index]?
    some { broker with
      subs := broker.subs.set index { sub with wire := sub.wire.close, active := false } }
  | .publish publisher dgm order =>
    if order.Perm (broker.matching publisher) then
      some { broker with publishing := broker.publishing ++ [⟨publisher, dgm, order⟩] }
    else none
  | .send index ctxDone => do
    let call ← broker.publishing[index]?
    let target ← call.matched.head?
    let sub ← broker.subs[target]?
    let (wire, answer) ← sub.wire.send ctxDone call.dgm
    some { broker with
      subs := broker.subs.set target { sub with wire }
      publishing := broker.publishing.set index { call with matched := call.matched.tail }
      delivered :=
        match answer with
        | .ok true => broker.delivered ++ [(call.publisher, sub.subscriber, call.dgm)]
        | _ => broker.delivered }
  | .receive index ctxDone => do
    let sub ← broker.subs[index]?
    let (wire, _) ← sub.wire.receive ctxDone
    some { broker with subs := broker.subs.set index { sub with wire } }

end Broker

def reservedLevel : Level := "$errors".toList

def errorLevels (flowID : String) : List Level := if flowID = "*" then [['#']] else levels flowID

theorem levels_errorFlowTopic (flowID : String) :
    levels (errorFlowTopic flowID) = reservedLevel :: errorLevels flowID := by
  unfold errorFlowTopic errorLevels
  split
  · rfl
  · have htext : ("$errors/" ++ flowID).toList = reservedLevel ++ '/' :: flowID.toList := by
      rw [String.toList_append]
      rfl
    rw [levels, htext]
    refine List.splitOn_append_cons_self_of_not_mem ?_ _
    decide

theorem eq_of_levels_eq {s t : String} (h : levels s = levels t) : s = t := by
  have hs : ['/'].intercalate (levels s) = s.toList := List.intercalate_splitOn _
  have ht : ['/'].intercalate (levels t) = t.toList := List.intercalate_splitOn _
  rw [h] at hs
  exact String.toList_inj.mp (hs.symm.trans ht)

def concrete (level : Level) : Level := if level = ['#'] ∨ level = ['+'] then ['x'] else level

theorem matchFrom_map_concrete (pattern : List Level) :
    matchFrom pattern (pattern.map concrete) = true := by
  induction pattern with
  | nil => rfl
  | cons p pattern ih =>
    rw [List.map_cons, matchFrom]
    split
    · rfl
    next hhash =>
      rw [ih]
      by_cases hplus : p = ['+']
      · simp [hplus]
      · simp [concrete, hhash, hplus]

theorem concrete_eq_iff {level target : Level} (htarget : target ≠ ['x']) (hhash : target ≠ ['#'])
    (hplus : target ≠ ['+']) : concrete level = target ↔ level = target := by
  unfold concrete
  split
  next hwild =>
    constructor
    · intro h
      exact absurd h.symm htarget
    · rintro rfl
      exact absurd hwild (not_or.mpr ⟨hhash, hplus⟩)
  · rfl

def matchesTarget (pattern : List Level) : Bool :=
  pattern ≠ [] && pattern ≠ [['*']] && pattern ≠ [[]]

def catchesErrors (pattern : List Level) : Bool :=
  match pattern with
  | [] => false
  | first :: rest =>
    first = ['#'] || ((first = ['+'] || first = reservedLevel) && matchesTarget rest)

/-- A `bus-in` node that receives errors of some flow; an error carries no tags. -/
def BusIn.seesErrors (node : BusIn) : Bool :=
  catchesErrors (levels node.topic) && tagsMatch node.tags []

/-- A `bus-out` node that publishes where errors are published. -/
def BusOut.seemsError (node : BusOut) : Bool := (levels node.topic).head? = some reservedLevel

variable {pattern topic : List Level}

theorem matchFrom_cons_reserved {first : Level} {rest : List Level} :
    matchFrom (first :: rest) (reservedLevel :: topic) = true ↔
      first = ['#'] ∨ (first = ['+'] ∨ first = reservedLevel) ∧ matchFrom rest topic = true := by
  rw [matchFrom]
  split
  next hhash => simp [hhash]
  next hhash => simp [hhash]

theorem matchesTarget_iff :
    matchesTarget pattern = true ↔ pattern ≠ [] ∧ pattern ≠ [['*']] ∧ pattern ≠ [[]] := by
  simp [matchesTarget, and_assoc]

theorem matchesTarget_errorLevels {target : String} (htarget : target ≠ "") :
    matchesTarget (errorLevels target) = true := by
  rw [errorLevels]
  split
  · decide
  next hstar =>
    refine matchesTarget_iff.mpr ⟨List.splitOn_ne_nil _ _, ?_, ?_⟩
    · exact fun h => hstar (eq_of_levels_eq (h.trans rfl))
    · exact fun h => htarget (eq_of_levels_eq (h.trans rfl))

theorem eq_of_matchFrom_singleton {level : Level} (hhash : level ≠ ['#']) (hplus : level ≠ ['+'])
    (hmatch : matchFrom [level] topic = true) : topic = [level] := by
  cases topic with
  | nil => simp [matchFrom, hhash] at hmatch
  | cons first rest =>
    simp only [matchFrom, if_neg hhash, hplus, decide_false, Bool.false_or, Bool.and_eq_true,
      decide_eq_true_eq, List.isEmpty_iff] at hmatch
    rw [hmatch.1, hmatch.2]

theorem matchesTarget_of_match (htopic : matchesTarget topic = true)
    (hmatch : matchFrom pattern topic = true) : matchesTarget pattern = true := by
  obtain ⟨hnil, hstar, hempty⟩ := matchesTarget_iff.mp htopic
  refine matchesTarget_iff.mpr ⟨?_, ?_, ?_⟩
  · rintro rfl
    exact hnil (List.isEmpty_iff.mp hmatch)
  · rintro rfl
    exact hstar (eq_of_matchFrom_singleton (by decide) (by decide) hmatch)
  · rintro rfl
    exact hempty (eq_of_matchFrom_singleton (by decide) (by decide) hmatch)

/-- A topic that stands for the pattern, with a plain level at each wildcard. -/
def exampleTopic (pattern : List Level) : String :=
  .ofList (['/'].intercalate (pattern.map concrete))

theorem levels_exampleTopic (hnil : pattern ≠ []) (hlevels : ∀ level ∈ pattern, '/' ∉ level) :
    levels (exampleTopic pattern) = pattern.map concrete := by
  rw [levels, exampleTopic, String.toList_ofList]
  refine List.splitOn_intercalate _ ?_ (fun h => hnil (List.map_eq_nil_iff.mp h))
  intro level hlevel
  obtain ⟨source, hsource, rfl⟩ := List.mem_map.mp hlevel
  unfold concrete
  split
  · decide
  · exact hlevels source hsource

theorem exists_target (hlevels : ∀ level ∈ pattern, '/' ∉ level)
    (hpattern : matchesTarget pattern = true) :
    ∃ target ≠ "", matchFrom pattern (errorLevels target) = true := by
  obtain ⟨hnil, hstar, hempty⟩ := matchesTarget_iff.mp hpattern
  have htarget := levels_exampleTopic hnil hlevels
  have hsingle : ∀ level, level ≠ ['x'] → level ≠ ['#'] → level ≠ ['+'] → pattern ≠ [level] →
      pattern.map concrete ≠ [level] := by
    intro level hx hhash hplus hne h
    obtain ⟨source, rfl, hsource⟩ := List.map_eq_singleton_iff.mp h
    exact hne (congrArg (fun l => [l]) ((concrete_eq_iff hx hhash hplus).mp hsource))
  refine ⟨exampleTopic pattern, ?_, ?_⟩
  · intro h
    rw [h] at htarget
    exact hsingle [] (by decide) (by decide) (by decide) hempty htarget.symm
  · have hnotStar : exampleTopic pattern ≠ "*" := by
      intro h
      rw [h] at htarget
      exact hsingle ['*'] (by decide) (by decide) (by decide) hstar htarget.symm
    rw [errorLevels, if_neg hnotStar, htarget]
    exact matchFrom_map_concrete pattern

theorem catchesErrors_iff (topic : String) :
    catchesErrors (levels topic) = true ↔
      ∃ target ≠ "", matchTopic topic (errorFlowTopic target) = true := by
  unfold matchTopic
  simp only [levels_errorFlowTopic]
  cases hlevels : levels topic with
  | nil => exact absurd hlevels (List.splitOn_ne_nil _ _)
  | cons first rest =>
    simp only [matchFrom_cons_reserved, catchesErrors, Bool.or_eq_true, Bool.and_eq_true,
      decide_eq_true_eq]
    constructor
    · rintro (hhash | ⟨hfirst, hrest⟩)
      · exact ⟨"x", by decide, .inl hhash⟩
      · have hslash : ∀ level ∈ rest, '/' ∉ level := fun level hlevel =>
          notMem_of_mem_splitOn (hlevels ▸ List.mem_cons_of_mem first hlevel)
        obtain ⟨target, htarget, hmatch⟩ := exists_target hslash hrest
        exact ⟨target, htarget, .inr ⟨hfirst, hmatch⟩⟩
    · rintro ⟨target, htarget, hhash | ⟨hfirst, hmatch⟩⟩
      · exact .inl hhash
      · exact .inr ⟨hfirst, matchesTarget_of_match (matchesTarget_errorLevels htarget) hmatch⟩

theorem head?_eq_reserved_iff (topic : String) :
    (levels topic).head? = some reservedLevel ↔
      ∃ flowID ≠ "", matchTopic (errorFlowTopic flowID) topic = true := by
  unfold matchTopic
  simp only [levels_errorFlowTopic]
  cases hlevels : levels topic with
  | nil => exact absurd hlevels (List.splitOn_ne_nil _ _)
  | cons first rest =>
    rw [List.head?_cons, Option.some.injEq]
    constructor
    · rintro rfl
      exact ⟨"*", by decide, rfl⟩
    · rintro ⟨flowID, -, hmatch⟩
      obtain ⟨hfirst, -⟩ := (Bool.and_eq_true _ _).mp hmatch
      rcases (Bool.or_eq_true _ _).mp hfirst with hplus | hsame
      · contradiction
      · exact (of_decide_eq_true hsame).symm

structure Nodes where
  busIn : List BusIn
  busOut : List BusOut

def Nodes.subscribes (nodes : Nodes) : Subscriber → Prop
  | .busIn node => node ∈ nodes.busIn
  | .errorTrigger _ => True

def Nodes.publishes (nodes : Nodes) : Publisher → Prop
  | .busOut node => node ∈ nodes.busOut
  | .runner _ _ => True

def Nodes.acts {α : Type} (nodes : Nodes) : Action α → Prop
  | .subscribe subscriber => nodes.subscribes subscriber
  | .publish publisher _ _ => nodes.publishes publisher
  | .cancel _ | .send _ _ | .receive _ _ => True

/-- An error for a `bus-in` node, or something of a `bus-out` node for an error trigger. -/
def crosses : Publisher → Subscriber → Bool
  | .runner _ _, .busIn _ => true
  | .busOut _, .errorTrigger _ => true
  | .runner _ _, .errorTrigger _ | .busOut _, .busIn _ => false

section Runs

variable {α : Type} [Inhabited α] {nodes : Nodes} {broker broker' : Broker α}

def Broker.subscribers (broker : Broker α) : List Subscriber :=
  broker.subs.map Subscription.subscriber

/-- What is delivered, or about to be, was published to a subscription that receives it. -/
structure Lawful (nodes : Nodes) (broker : Broker α) : Prop where
  subs : ∀ subscriber ∈ broker.subscribers, nodes.subscribes subscriber
  publishing : ∀ call ∈ broker.publishing, nodes.publishes call.publisher ∧
    ∀ index ∈ call.matched, ∃ subscriber, broker.subscribers[index]? = some subscriber ∧
      receives subscriber call.publisher = true
  delivered : ∀ delivery ∈ broker.delivered, nodes.publishes delivery.1 ∧
    nodes.subscribes delivery.2.1 ∧ receives delivery.2.1 delivery.1 = true

omit [Inhabited α] in
theorem lawful_init (nodes : Nodes) : Lawful nodes ({} : Broker α) where
  subs := List.forall_mem_nil _
  publishing := List.forall_mem_nil _
  delivered := List.forall_mem_nil _

variable {index : Nat} {subscriber : Subscriber} {publisher : Publisher}

omit [Inhabited α] in
theorem Lawful.of_wire (hlawful : Lawful nodes broker) {sub sub' : Subscription α}
    (hsub : broker.subs[index]? = some sub) (hsame : sub'.subscriber = sub.subscriber) :
    Lawful nodes { broker with subs := broker.subs.set index sub' } := by
  have hsubscribers : (broker.subs.set index sub').map Subscription.subscriber =
      broker.subs.map Subscription.subscriber := map_set_of_eq hsub hsame
  refine ⟨?_, ?_, hlawful.delivered⟩
  · rw [Broker.subscribers, hsubscribers]
    exact hlawful.subs
  · rw [Broker.subscribers, hsubscribers]
    exact hlawful.publishing

theorem lawful_subscribe (hlawful : Lawful nodes broker)
    (hsubscribes : nodes.subscribes subscriber) :
    Lawful nodes { broker with
      subs := broker.subs ++ [⟨subscriber, Wire.newWire subscriber.wireConfig, true⟩] } := by
  have hsubscribers (sub : Subscription α) :
      (broker.subs ++ [sub]).map Subscription.subscriber =
        broker.subscribers ++ [sub.subscriber] := List.map_append
  refine ⟨?_, ?_, hlawful.delivered⟩
  · rw [Broker.subscribers, hsubscribers]
    exact forall_mem_concat hlawful.subs hsubscribes
  · intro call hcall
    obtain ⟨hpublishes, hmatched⟩ := hlawful.publishing call hcall
    refine ⟨hpublishes, fun index hindex => ?_⟩
    obtain ⟨other, hother, hreceives⟩ := hmatched index hindex
    obtain ⟨hlt, -⟩ := List.getElem?_eq_some_iff.mp hother
    refine ⟨other, ?_, hreceives⟩
    rw [Broker.subscribers, hsubscribers, List.getElem?_append_left hlt]
    exact hother

omit [Inhabited α] in
theorem exists_of_mem_matching (hindex : index ∈ broker.matching publisher) :
    ∃ subscriber, broker.subscribers[index]? = some subscriber ∧
      receives subscriber publisher = true := by
  obtain ⟨-, hany⟩ := List.mem_filter.mp hindex
  obtain ⟨sub, hsub, hreceives⟩ := (Option.any_eq_true _ _).mp hany
  refine ⟨sub.subscriber, ?_, ((Bool.and_eq_true _ _).mp hreceives).2⟩
  rw [Broker.subscribers, List.getElem?_map, hsub]
  rfl

omit [Inhabited α] in
theorem lawful_send (hlawful : Lawful nodes broker) {target : Nat} {call : Publishing α}
    {sub : Subscription α} {wire : Wire α} (hcall : broker.publishing[index]? = some call)
    (htarget : call.matched.head? = some target) (hsub : broker.subs[target]? = some sub)
    (answer : Except WireError Bool) :
    Lawful nodes { broker with
      subs := broker.subs.set target { sub with wire }
      publishing := broker.publishing.set index { call with matched := call.matched.tail }
      delivered :=
        match answer with
        | .ok true => broker.delivered ++ [(call.publisher, sub.subscriber, call.dgm)]
        | _ => broker.delivered } := by
  have hwire : Lawful nodes { broker with subs := broker.subs.set target { sub with wire } } :=
    hlawful.of_wire hsub rfl
  obtain ⟨hpublishes, hmatched⟩ := hlawful.publishing call (List.mem_of_getElem? hcall)
  refine ⟨hwire.subs, ?_, ?_⟩
  · refine forall_mem_set hwire.publishing ?_
    obtain ⟨hpublishes, hmatched⟩ := hwire.publishing call (List.mem_of_getElem? hcall)
    exact ⟨hpublishes, fun i hi => hmatched i (List.mem_of_mem_tail hi)⟩
  · have hnew : nodes.publishes call.publisher ∧ nodes.subscribes sub.subscriber ∧
        receives sub.subscriber call.publisher = true := by
      obtain ⟨subscriber, hsubscriber, hreceives⟩ :=
        hmatched target (List.mem_of_mem_head? htarget)
      have hsame : broker.subscribers[target]? = some sub.subscriber := by
        rw [Broker.subscribers, List.getElem?_map, hsub]
        rfl
      obtain rfl := Option.mem_unique hsame hsubscriber
      exact ⟨hpublishes, hlawful.subs _ (List.mem_of_getElem? hsame), hreceives⟩
    split
    · exact forall_mem_concat hlawful.delivered hnew
    · exact hlawful.delivered

theorem lawful_step (hlawful : Lawful nodes broker) {action : Action α} (hacts : nodes.acts action)
    (hstep : broker.step action = some broker') : Lawful nodes broker' := by
  cases action with
  | subscribe subscriber =>
    obtain rfl := Option.some.inj hstep
    exact lawful_subscribe hlawful hacts
  | cancel index =>
    obtain ⟨sub, hsub, hbroker⟩ := Option.bind_eq_some_iff.mp hstep
    obtain rfl := Option.some.inj hbroker
    exact hlawful.of_wire hsub rfl
  | publish publisher dgm order =>
    obtain ⟨hperm, hbroker⟩ := Option.ite_none_right_eq_some.mp hstep
    obtain rfl := Option.some.inj hbroker
    refine ⟨hlawful.subs, forall_mem_concat hlawful.publishing ⟨hacts, ?_⟩, hlawful.delivered⟩
    intro index hindex
    exact exists_of_mem_matching (hperm.mem_iff.mp hindex)
  | send index ctxDone =>
    obtain ⟨call, hcall, hstep⟩ := Option.bind_eq_some_iff.mp hstep
    obtain ⟨target, htarget, hstep⟩ := Option.bind_eq_some_iff.mp hstep
    obtain ⟨sub, hsub, hstep⟩ := Option.bind_eq_some_iff.mp hstep
    obtain ⟨⟨wire, answer⟩, -, hbroker⟩ := Option.bind_eq_some_iff.mp hstep
    obtain rfl := Option.some.inj hbroker
    exact lawful_send hlawful hcall htarget hsub answer
  | receive index ctxDone =>
    obtain ⟨sub, hsub, hstep⟩ := Option.bind_eq_some_iff.mp hstep
    obtain ⟨⟨wire, answer⟩, -, hbroker⟩ := Option.bind_eq_some_iff.mp hstep
    obtain rfl := Option.some.inj hbroker
    exact hlawful.of_wire hsub rfl

theorem seesErrors_of_receives {node : BusIn} {target : String} {htarget : target ≠ ""}
    (h : receives (.busIn node) (.runner target htarget) = true) : node.seesErrors = true := by
  obtain ⟨hmatch, htags⟩ := (Bool.and_eq_true _ _).mp h
  exact (Bool.and_eq_true _ _).mpr ⟨(catchesErrors_iff _).mpr ⟨target, htarget, hmatch⟩, htags⟩

theorem seemsError_of_receives {trigger : ErrorTrigger} {node : BusOut}
    (h : receives (.errorTrigger trigger) (.busOut node) = true) : node.seemsError = true := by
  obtain ⟨hmatch, -⟩ := (Bool.and_eq_true _ _).mp h
  exact decide_eq_true ((head?_eq_reserved_iff _).mpr ⟨_, trigger.flowID_ne, hmatch⟩)

theorem send_newWire (cfg : WireConfig) (ctxDone : Bool) (dgm : α) :
    ∃ wire, (Wire.newWire cfg).send ctxDone dgm = some (wire, .ok true) := by
  have hfull : ¬ (Wire.newWire cfg : Wire α).full = true := by
    intro hfull
    exact absurd cfg.normalized_capacity_pos (not_lt.mpr (of_decide_eq_true hfull))
  refine ⟨(Wire.newWire cfg).deliver dgm (Wire.room_of_not_full hfull), ?_⟩
  rw [Wire.send, if_neg (by simp [Wire.newWire]), dif_neg hfull]

theorem exists_delivery (hreceives : receives subscriber publisher = true) (dgm : α) :
    ∃ broker, run Broker.step ({} : Broker α)
        [.subscribe subscriber, .publish publisher dgm [0], .send 0 false] = some broker ∧
      (publisher, subscriber, dgm) ∈ broker.delivered := by
  obtain ⟨wire, hwire⟩ := send_newWire subscriber.wireConfig false dgm
  let sub : Subscription α := ⟨subscriber, Wire.newWire subscriber.wireConfig, true⟩
  have hmatching : Broker.matching { subs := [sub] } publisher = [0] := by
    simp [Broker.matching, sub, hreceives]
  have hpublish : Broker.step { subs := [sub] } (.publish publisher dgm [0]) =
      some { subs := [sub], publishing := [⟨publisher, dgm, [0]⟩] } := by
    rw [Broker.step, if_pos (hmatching ▸ List.Perm.refl _)]
    rfl
  have hsend :
      Broker.step { subs := [sub], publishing := [⟨publisher, dgm, [0]⟩] } (.send 0 false) =
      some { subs := [{ sub with wire }], publishing := [⟨publisher, dgm, []⟩],
             delivered := [(publisher, subscriber, dgm)] } := by
    simp [Broker.step, sub, hwire]
  refine ⟨_, run_cons_eq_some.mpr ⟨_, rfl, run_cons_eq_some.mpr ⟨_, hpublish,
    run_cons_eq_some.mpr ⟨_, hsend, rfl⟩⟩⟩, List.mem_singleton_self _⟩

theorem crosses_eq_false (hbusIn : ∀ node ∈ nodes.busIn, node.seesErrors = false)
    (hbusOut : ∀ node ∈ nodes.busOut, node.seemsError = false)
    (hpublishes : nodes.publishes publisher) (hsubscribes : nodes.subscribes subscriber)
    (hreceives : receives subscriber publisher = true) : crosses publisher subscriber = false := by
  cases publisher with
  | runner target htarget =>
    cases subscriber with
    | busIn node =>
      have hsees := seesErrors_of_receives hreceives
      rw [hbusIn node hsubscribes] at hsees
      contradiction
    | errorTrigger trigger => rfl
  | busOut node =>
    cases subscriber with
    | busIn other => rfl
    | errorTrigger trigger =>
      have hseems := seemsError_of_receives hreceives
      rw [hbusOut node hpublishes] at hseems
      contradiction

/-- No error reaches a `bus-in` node and nothing of a `bus-out` node an error trigger, in any run,
exactly when no `bus-in` pattern catches errors and no `bus-out` topic is a reserved one. -/
theorem error_topics_isolated_iff (nodes : Nodes) :
    (∀ actions (broker : Broker α), (∀ action ∈ actions, nodes.acts action) →
      run Broker.step {} actions = some broker →
      ∀ delivery ∈ broker.delivered, crosses delivery.1 delivery.2.1 = false) ↔
    (∀ node ∈ nodes.busIn, node.seesErrors = false) ∧
      ∀ node ∈ nodes.busOut, node.seemsError = false := by
  constructor
  · intro hisolated
    have hnone : ∀ subscriber publisher, nodes.subscribes subscriber →
        nodes.publishes publisher → receives subscriber publisher = true →
        crosses publisher subscriber = false := by
      intro subscriber publisher hsubscribes hpublishes hreceives
      obtain ⟨broker, hrun, hmem⟩ := exists_delivery hreceives (default : α)
      refine hisolated _ broker ?_ hrun _ hmem
      exact List.forall_mem_cons.mpr ⟨hsubscribes, List.forall_mem_cons.mpr
        ⟨hpublishes, List.forall_mem_singleton.mpr trivial⟩⟩
    constructor
    · intro node hnode
      refine Bool.eq_false_iff.mpr fun hsees => ?_
      obtain ⟨hcatches, htags⟩ := (Bool.and_eq_true _ _).mp hsees
      obtain ⟨target, htarget, hmatch⟩ := (catchesErrors_iff _).mp hcatches
      have hcrosses := hnone (.busIn node) (.runner target htarget) hnode trivial
        ((Bool.and_eq_true _ _).mpr ⟨hmatch, htags⟩)
      contradiction
    · intro node hnode
      refine Bool.eq_false_iff.mpr fun hseems => ?_
      obtain ⟨flowID, hflow, hmatch⟩ :=
        (head?_eq_reserved_iff _).mp (of_decide_eq_true hseems)
      have hcrosses := hnone (.errorTrigger ⟨flowID, hflow⟩) (.busOut node) trivial hnode
        ((Bool.and_eq_true _ _).mpr ⟨hmatch, rfl⟩)
      contradiction
  · rintro ⟨hbusIn, hbusOut⟩ actions broker hacts hrun delivery hmem
    have hlawful : Lawful nodes broker :=
      run_invariant_of_meets (fun hlawful haction hstep => lawful_step hlawful haction hstep)
        (lawful_init nodes) (meets_of_forall hacts _) hrun
    obtain ⟨hpublishes, hsubscribes, hreceives⟩ := hlawful.delivered delivery hmem
    exact crosses_eq_false hbusIn hbusOut hpublishes hsubscribes hreceives

end Runs

def everything : BusIn := ⟨"#", [], "", by decide⟩

def reservedOut : BusOut := ⟨"$errors/orders", [], by decide⟩

def ordersTrigger : ErrorTrigger := ⟨"orders", by decide⟩

/-- A `bus-in` node for all topics receives an error, and an error trigger what a `bus-out` node
publishes. -/
theorem error_topics_collide :
    (run Broker.step ({} : Broker Nat)
      [.subscribe (.busIn everything), .subscribe (.errorTrigger ordersTrigger),
        .publish (.runner "orders" (by decide)) 1 [0, 1], .send 0 false, .send 0 false,
        .publish (.busOut reservedOut) 2 [1, 0], .send 1 false]).map Broker.delivered =
      some [(.runner "orders" (by decide), .busIn everything, 1),
        (.runner "orders" (by decide), .errorTrigger ordersTrigger, 1),
        (.busOut reservedOut, .errorTrigger ordersTrigger, 2)] := by
  decide

end DataPipe.Bus.Topics
