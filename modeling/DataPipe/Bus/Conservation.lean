import DataPipe.Bus.Wire
import DataPipe.Foundation.Run
import Mathlib.Data.Multiset.AddSub

/-!
# Conservation along a wire

A history records, beside the wire, what the sends that returned without an error offered and
what the receives returned.  Sends that wait for room are kept apart until they are resumed.
`sampled` counts the sends that found the queue full and were kept by the sample policy, each
evicting the oldest datagram without counting a drop.
-/

namespace DataPipe.Bus

open DataPipe.Foundation

variable {α : Type}

structure History (α : Type) where
  wire : Wire α
  waiting : List α
  offered : List α
  received : List α
  sampled : Nat

inductive Op (α : Type) where
  | send (ctxDone : Bool) (dgm : α)
  | wake (index : Nat) (ctxDone : Bool)
  | receive (ctxDone : Bool)
  | close
  deriving DecidableEq, Repr

namespace Wire

def samplesOut (wire : Wire α) : Bool :=
  !wire.closed && wire.full && decide (wire.cfg.overflow = .sample) && wire.countSample.sampleHit

end Wire

namespace History

def start [Inhabited α] (cfg : WireConfig) : History α := ⟨Wire.newWire cfg, [], [], [], 0⟩

def step [Inhabited α] (history : History α) : Op α → Option (History α)
  | .send ctxDone dgm =>
    match history.wire.send ctxDone dgm with
    | none => some { history with waiting := history.waiting ++ [dgm] }
    | some (wire, .error _) => some { history with wire := wire }
    | some (wire, .ok _) =>
      some { history with
        wire := wire
        offered := history.offered ++ [dgm]
        sampled := history.sampled + history.wire.samplesOut.toNat }
  | .wake index ctxDone =>
    match history.waiting[index]? with
    | none => none
    | some dgm =>
      match history.wire.sendBlocked ctxDone dgm with
      | none => some history
      | some (wire, .error _) =>
        some { history with
          wire := wire, waiting := history.waiting.eraseIdx index }
      | some (wire, .ok _) =>
        some { history with
          wire := wire
          waiting := history.waiting.eraseIdx index
          offered := history.offered ++ [dgm] }
  | .receive ctxDone =>
    match history.wire.receive ctxDone with
    | none => none
    | some (wire, .error _) => some { history with wire := wire }
    | some (wire, .ok dgm) =>
      some { history with
        wire := wire, received := history.received ++ [dgm] }
  | .close => some { history with wire := history.wire.close }

end History

namespace Wire

variable {next wire : Wire α} {ctxDone : Bool} {dgm : α} {outcome : Except WireError Bool}

theorem sendBlocked_spec (hsend : wire.sendBlocked ctxDone dgm = some (next, outcome)) :
    next = wire ∧ outcome.isOk = false ∨ next.queue = wire.queue ++ [dgm] ∧
      next.metrics.dropped = wire.metrics.dropped ∧ next.cfg = wire.cfg ∧ outcome = .ok true := by
  revert hsend
  fun_cases wire.sendBlocked ctxDone dgm <;> rintro ⟨⟩
  case case4 => exact .inr ⟨queue_deliver _ _ _, rfl, rfl, rfl⟩
  all_goals exact .inl ⟨rfl, rfl⟩

theorem send_keeps [Inhabited α] (hsend : wire.send ctxDone dgm = some (next, outcome)) :
    next.cfg = wire.cfg ∧ (outcome.isOk = false → next = wire) := by
  revert hsend
  fun_cases wire.send ctxDone dgm
  case case2 =>
    intro hsend
    obtain ⟨rfl, -⟩ | ⟨-, -, hcfg, rfl⟩ := sendBlocked_spec hsend
    · exact ⟨rfl, fun _ => rfl⟩
    · exact ⟨hcfg, nofun⟩
  case case1 =>
    rintro ⟨⟩
    exact ⟨rfl, fun _ => rfl⟩
  all_goals
    rintro ⟨⟩
    exact ⟨rfl, nofun⟩

theorem length_tail_add_one_of_full (hfull : wire.full = true) :
    wire.queue.tail.length + 1 = wire.queue.length := by
  have hne := queue_ne_nil_of_full hfull
  have hpos := List.length_pos_of_ne_nil hne
  rw [List.length_tail]
  omega

/--
A send without an error either keeps the queue or appends to it, possibly
behind an eviction, and accounts for exactly one datagram: in the queue, in
the drop counter, or as an eviction through sampling.
-/
theorem send_ok [Inhabited α] {delivered : Bool}
    (hsend : wire.send ctxDone dgm = some (next, .ok delivered)) :
    next.queue.Sublist (wire.queue ++ [dgm]) ∧
      next.queue.length + next.metrics.dropped + wire.samplesOut.toNat =
        wire.queue.length + wire.metrics.dropped + 1 := by
  revert hsend
  fun_cases wire.send ctxDone dgm
  case case2 hfull hpolicy =>
    intro hsend
    obtain ⟨-, ⟨⟩⟩ | ⟨hqueue, hdropped, -⟩ := sendBlocked_spec hsend
    have hout : wire.samplesOut = false := by simp [samplesOut, hpolicy]
    simp only [hqueue, hout, List.length_append, List.length_singleton, Bool.toNat_false]
    exact ⟨List.Sublist.refl _, by omega⟩
  all_goals rintro ⟨⟩
  next hfull hpolicy =>
    have htail := length_tail_add_one_of_full hfull
    have hout : wire.samplesOut = false := by simp [samplesOut, hpolicy]
    rw [hout, queue_deliver, queue_countDrop, queue_popOldestLocked]
    refine ⟨(List.tail_sublist _).append (List.Sublist.refl _), ?_⟩
    simp only [deliver, countDrop, popOldestLocked, List.length_append,
      List.length_singleton, Bool.toNat_false]
    omega
  next hpolicy =>
    have hout : wire.samplesOut = false := by simp [samplesOut, hpolicy]
    rw [hout, queue_countDrop]
    refine ⟨List.sublist_append_left _ _, ?_⟩
    simp only [countDrop, Bool.toNat_false]
    omega
  next hopen hfull hpolicy counted hhit =>
    have htail := length_tail_add_one_of_full hfull
    have hout : wire.samplesOut = true := by simpa [samplesOut, hfull, hpolicy, hopen] using hhit
    rw [hout, queue_deliver, queue_popOldestLocked, queue_countSample]
    refine ⟨(List.tail_sublist _).append (List.Sublist.refl _), ?_⟩
    simp only [counted, deliver, countSample, popOldestLocked, List.length_append,
      List.length_singleton, Bool.toNat_true]
    omega
  next counted hmiss =>
    have hout : wire.samplesOut = false := by simpa [samplesOut] using fun _ _ _ => hmiss
    rw [hout, queue_countDrop, queue_countSample]
    refine ⟨List.sublist_append_left _ _, ?_⟩
    simp only [counted, countDrop, countSample, Bool.toNat_false]
    omega
  next hroom =>
    have hout : wire.samplesOut = false := by simp [samplesOut, hroom]
    rw [hout, queue_deliver]
    refine ⟨List.Sublist.refl _, ?_⟩
    simp [deliver]
    omega

theorem receive_spec [Inhabited α] {outcome : Except WireError α}
    (hreceive : wire.receive ctxDone = some (next, outcome)) :
    next = wire ∧ outcome.isOk = false ∨ ∃ dgm, outcome = .ok dgm ∧
      wire.queue = dgm :: next.queue ∧ next.metrics.dropped = wire.metrics.dropped ∧
        next.cfg = wire.cfg := by
  revert hreceive
  fun_cases wire.receive ctxDone <;> rintro ⟨⟩
  case case4 hcount => exact .inr ⟨_, rfl, wire.ring.contents_eq_slot_cons default hcount, rfl, rfl⟩
  all_goals exact .inl ⟨rfl, rfl⟩

end Wire

namespace History

/-- The offered datagrams are those received, those queued and exactly `losses` others. -/
def Conserves (history : History α) (losses : Nat) : Prop :=
  ∃ others : Multiset α,
    (history.offered : Multiset α) =
      (history.received : Multiset α) + (history.wire.queue : Multiset α) +
        others ∧
    others.card = losses

structure Accounted (history : History α) : Prop where
  ordered : (history.received ++ history.wire.queue).Sublist history.offered
  counted : history.offered.length =
    history.received.length + history.wire.queue.length +
      (history.wire.metrics.dropped + history.sampled)

theorem accounted_start [Inhabited α] (cfg : WireConfig) : (start cfg : History α).Accounted := by
  constructor
  · simp [start]
  · rfl

inductive Change (history next : History α) : Prop where
  | quiet (hqueue : next.wire.queue = history.wire.queue)
      (hdropped : next.wire.metrics.dropped = history.wire.metrics.dropped)
      (hoffered : next.offered = history.offered)
      (hreceived : next.received = history.received)
      (hsampled : next.sampled = history.sampled)
  | offered (dgm : α) (evicted : Bool)
      (hqueue : next.wire.queue.Sublist (history.wire.queue ++ [dgm]))
      (hcount : next.wire.queue.length + next.wire.metrics.dropped + evicted.toNat =
        history.wire.queue.length + history.wire.metrics.dropped + 1)
      (hpolicy : evicted = true → history.wire.cfg.overflow = .sample)
      (hoffered : next.offered = history.offered ++ [dgm])
      (hreceived : next.received = history.received)
      (hsampled : next.sampled = history.sampled + evicted.toNat)
  | received (dgm : α) (hqueue : history.wire.queue = dgm :: next.wire.queue)
      (hdropped : next.wire.metrics.dropped = history.wire.metrics.dropped)
      (hoffered : next.offered = history.offered)
      (hreceived : next.received = history.received ++ [dgm])
      (hsampled : next.sampled = history.sampled)

variable {history next : History α} {op : Op α}

theorem change_of_step [Inhabited α] (hstep : history.step op = some next) :
    history.Change next ∧ next.wire.cfg = history.wire.cfg := by
  revert hstep
  fun_cases history.step op <;> rintro ⟨⟩
  any_goals exact ⟨.quiet rfl rfl rfl rfl rfl, rfl⟩
  next hsend =>
    rw [(Wire.send_keeps hsend).2 rfl]
    exact ⟨.quiet rfl rfl rfl rfl rfl, rfl⟩
  next dgm _ _ hsend =>
    obtain ⟨hqueue, hcount⟩ := Wire.send_ok hsend
    refine ⟨.offered dgm _ hqueue hcount ?_ rfl rfl rfl, (Wire.send_keeps hsend).1⟩
    intro hout
    simp only [Wire.samplesOut, Bool.and_eq_true, decide_eq_true_eq] at hout
    exact hout.1.2
  next hsend =>
    obtain ⟨rfl, -⟩ | ⟨-, -, -, ⟨⟩⟩ := Wire.sendBlocked_spec hsend
    exact ⟨.quiet rfl rfl rfl rfl rfl, rfl⟩
  next dgm _ _ _ hsend =>
    obtain ⟨-, ⟨⟩⟩ | ⟨hqueue, hdropped, hcfg, -⟩ := Wire.sendBlocked_spec hsend
    refine ⟨.offered dgm false ?_ ?_ (by simp) rfl rfl rfl, hcfg⟩
    · rw [hqueue]
    · simp only [hqueue, List.length_append, List.length_singleton, Bool.toNat_false]
      omega
  next hreceive =>
    obtain ⟨rfl, -⟩ | ⟨_, ⟨⟩, -⟩ := Wire.receive_spec hreceive
    exact ⟨.quiet rfl rfl rfl rfl rfl, rfl⟩
  next dgm hreceive =>
    obtain ⟨-, ⟨⟩⟩ | ⟨_, ⟨⟩, hqueue, hdropped, hcfg⟩ := Wire.receive_spec hreceive
    exact ⟨.received dgm hqueue hdropped rfl rfl rfl, hcfg⟩

theorem accounted_step [Inhabited α] (haccounted : history.Accounted)
    (hstep : history.step op = some next) : next.Accounted := by
  obtain ⟨hordered, hcounted⟩ := haccounted
  cases (change_of_step hstep).1 with
  | quiet hqueue hdropped hoffered hreceived hsampled =>
    constructor
    · rw [hreceived, hqueue, hoffered]
      exact hordered
    · rw [hoffered, hreceived, hqueue, hdropped, hsampled]
      exact hcounted
  | offered dgm evicted hqueue hcount hpolicy hoffered hreceived hsampled =>
    constructor
    · rw [hreceived, hoffered]
      have happend := hordered.append (List.Sublist.refl [dgm])
      rw [List.append_assoc] at happend
      exact ((List.Sublist.refl _).append hqueue).trans happend
    · rw [hoffered, hreceived, List.length_append, List.length_singleton]
      omega
  | received dgm hqueue hdropped hoffered hreceived hsampled =>
    rw [hqueue] at hordered hcounted
    constructor
    · rw [hreceived, hoffered]
      simpa using hordered
    · rw [hoffered, hreceived, List.length_append, List.length_singleton]
      rw [List.length_cons] at hcounted
      omega

theorem Accounted.conserves (haccounted : history.Accounted) :
    history.Conserves (history.wire.metrics.dropped + history.sampled) := by
  have hle : (↑(history.received ++ history.wire.queue) : Multiset α) ≤
      history.offered := haccounted.ordered.subperm
  obtain ⟨others, hothers⟩ := Multiset.le_iff_exists_add.mp hle
  refine ⟨others, by rw [hothers, Multiset.coe_add], ?_⟩
  have hcard := congrArg Multiset.card hothers
  have hcounted := haccounted.counted
  simp only [Multiset.coe_card, Multiset.card_add, List.length_append] at hcard
  omega

/-! Only the sample policy evicts without counting. -/

def Unsampled (history : History α) : Prop :=
  history.wire.cfg.overflow ≠ .sample ∧ history.sampled = 0

theorem unsampled_step [Inhabited α] (hunsampled : history.Unsampled)
    (hstep : history.step op = some next) : next.Unsampled := by
  obtain ⟨hpolicy, hsampled⟩ := hunsampled
  obtain ⟨hchange, hcfg⟩ := change_of_step hstep
  refine ⟨hcfg ▸ hpolicy, ?_⟩
  cases hchange with
  | quiet _ _ _ _ hkept | received _ _ _ _ _ hkept => rw [hkept, hsampled]
  | offered _ evicted _ _ hsample _ _ hkept =>
    cases evicted with
    | false => rw [hkept, hsampled, Bool.toNat_false]
    | true => exact absurd (hsample rfl) hpolicy

end History

/--
Conservation and order along every run of a wire.  Besides the counted drops,
only the sample policy loses datagrams: one for each send it keeps on a full
queue.
-/
theorem wire_conservation [Inhabited α] (cfg : WireConfig) (ops : List (Op α)) {final : History α}
    (hrun : run History.step (History.start cfg) ops = some final) :
    final.Conserves (final.wire.metrics.dropped + final.sampled) ∧
      (cfg.overflow ≠ .sample → final.sampled = 0) ∧
      (final.received ++ final.wire.queue).Sublist final.offered ∧
      final.wire.depth ≤ final.wire.capacity := by
  have haccounted : final.Accounted :=
    run_invariant History.accounted_step (History.accounted_start cfg) hrun
  refine ⟨haccounted.conserves, ?_, haccounted.ordered, final.wire.ring.count_le⟩
  intro hpolicy
  have hstart : (History.start cfg : History α).Unsampled := ⟨hpolicy, rfl⟩
  exact (run_invariant History.unsampled_step hstart hrun).2

def sampleEverySecond : WireConfig := ⟨1, .sample, 2⟩

def overflowingSends : List (Op Nat) :=
  [.send false 0, .send false 1, .send false 2, .receive false]

theorem wire_conservation_overflowingSends :
    ∃ final : History Nat,
      run History.step (History.start sampleEverySecond) overflowingSends =
        some final ∧
      final.sampled = 1 ∧
      final.Conserves (final.wire.metrics.dropped + final.sampled) := by
  refine ⟨_, rfl, rfl, ?_⟩
  exact (wire_conservation sampleEverySecond overflowingSends rfl).1

theorem sample_eviction_not_counted :
    ¬ ∀ (cfg : WireConfig) (ops : List (Op Nat)) (final : History Nat),
      run History.step (History.start cfg) ops = some final →
        final.Conserves final.wire.metrics.dropped := by
  intro hall
  obtain ⟨others, hothers, hcard⟩ :=
    hall sampleEverySecond overflowingSends _ rfl
  have hlength := congrArg Multiset.card hothers
  rw [Multiset.card_add, hcard] at hlength
  exact absurd hlength (by decide)

end DataPipe.Bus
