import DataPipe.Foundation.RingBuffer

/-!
# Bounded wires

The model of `engine/bus/wire.go`.  A wire is a ring buffer with an overflow
policy, a closed flag and the delivered and dropped counters.  Every operation
runs under the wire's mutex, so one call is one step; a call that waits on a
condition variable answers `none` and changes nothing until it is resumed.
-/

namespace DataPipe.Bus

open DataPipe.Foundation

inductive OverflowPolicy where
  | block
  | dropOldest
  | dropNewest
  | sample
  deriving DecidableEq, Repr

structure WireConfig where
  capacity : Int
  overflow : OverflowPolicy
  sampleEvery : Int
  deriving DecidableEq, Repr

structure Metrics where
  delivered : Nat
  dropped : Nat
  deriving DecidableEq, Repr

inductive WireError where
  | closed
  | ctx
  deriving DecidableEq, Repr

structure Wire (α : Type) where
  cfg : WireConfig
  ring : RingBuffer α
  closed : Bool
  sampleN : Nat
  metrics : Metrics
  capacity_eq : cfg.capacity = ring.capacity
  sampleEvery_pos : cfg.overflow = .sample → 1 ≤ cfg.sampleEvery

variable (cfg : WireConfig)

namespace WireConfig

def normalized (cfg : WireConfig) : WireConfig where
  capacity := if cfg.capacity ≤ 0 then 1 else cfg.capacity
  overflow := cfg.overflow
  sampleEvery :=
    if cfg.overflow = .sample ∧ cfg.sampleEvery < 1 then 1
    else cfg.sampleEvery

theorem normalized_capacity_pos : 0 < cfg.normalized.capacity := by
  simp only [normalized]
  split <;> omega

end WireConfig

namespace Wire

variable {α : Type} (wire : Wire α)

def newWire [Inhabited α] (cfg : WireConfig) : Wire α where
  cfg := cfg.normalized
  ring := RingBuffer.empty default cfg.normalized.capacity.toNat
    (by have := cfg.normalized_capacity_pos; omega)
  closed := false
  sampleN := 0
  metrics := ⟨0, 0⟩
  capacity_eq := by
    have := cfg.normalized_capacity_pos
    simp
    omega
  sampleEvery_pos := by
    intro hsample
    simp only [WireConfig.normalized] at hsample ⊢
    simp only [hsample, true_and]
    split <;> omega

def queue (wire : Wire α) : List α := wire.ring.contents

def depth (wire : Wire α) : Nat := wire.ring.count

def capacity (wire : Wire α) : Nat := wire.ring.capacity

def full (wire : Wire α) : Bool :=
  decide (wire.cfg.capacity ≤ wire.ring.count)

theorem room_of_not_full {wire : Wire α} (hfull : ¬wire.full = true) :
    wire.ring.count < wire.ring.capacity := by
  have hcapacity := wire.capacity_eq
  simp only [full, decide_eq_true_eq] at hfull
  omega

def pushLocked (wire : Wire α) (dgm : α) (hroom : wire.ring.count < wire.ring.capacity) : Wire α :=
  { wire with
    ring := wire.ring.push dgm hroom
    capacity_eq := by simpa using wire.capacity_eq }

def popOldestLocked [Inhabited α] (wire : Wire α) : Wire α :=
  { wire with
    ring := wire.ring.pop default
    capacity_eq := by simpa using wire.capacity_eq }

theorem popOldestLocked_room [Inhabited α] :
    wire.popOldestLocked.ring.count < wire.popOldestLocked.ring.capacity := by
  have hpos := wire.ring.capacity_pos
  have hle : wire.ring.count ≤ wire.ring.capacity := wire.ring.count_le
  simp only [popOldestLocked, RingBuffer.count_pop, RingBuffer.capacity_pop]
  omega

def deliver (wire : Wire α) (dgm : α) (hroom : wire.ring.count < wire.ring.capacity) : Wire α :=
  { wire.pushLocked dgm hroom with
    metrics := { wire.metrics with delivered := wire.metrics.delivered + 1 } }

def countDrop (wire : Wire α) : Wire α :=
  { wire with
    metrics := { wire.metrics with dropped := wire.metrics.dropped + 1 } }

theorem popOldestLocked_countDrop_room [Inhabited α] : wire.popOldestLocked.countDrop.ring.count <
      wire.popOldestLocked.countDrop.ring.capacity :=
  wire.popOldestLocked_room

def countSample (wire : Wire α) : Wire α :=
  { wire with sampleN := wire.sampleN + 1 }

def sampleHit (wire : Wire α) : Bool :=
  decide ((wire.sampleN : Int) % wire.cfg.sampleEvery = 0)

/--
The `OverflowBlock` branch of `Send` from its `waitLocked` on; it runs when
the call enters the branch and again each time the waiting call wakes up.
-/
def sendBlocked (wire : Wire α) (ctxDone : Bool) (dgm : α) :
    Option (Wire α × Except WireError Bool) :=
  if ctxDone then some (wire, .error .ctx)
  else if hwait : (wire.full && !wire.closed) = true then none
  else if hclosed : wire.closed = true then some (wire, .error .closed)
  else
    some (wire.deliver dgm (room_of_not_full (by simpa [hclosed] using hwait)), .ok true)

/-- `Send`; `ok false` reports a datagram the policy dropped. -/
def send [Inhabited α] (wire : Wire α) (ctxDone : Bool) (dgm : α) :
    Option (Wire α × Except WireError Bool) :=
  if wire.closed then some (wire, .error .closed)
  else if hfull : wire.full = true then
    match wire.cfg.overflow with
    | .block => wire.sendBlocked ctxDone dgm
    | .dropOldest =>
      some (wire.popOldestLocked.countDrop.deliver dgm
        wire.popOldestLocked_countDrop_room, .ok true)
    | .dropNewest => some (wire.countDrop, .ok false)
    | .sample =>
      let wire := wire.countSample
      if wire.sampleHit then
        some (wire.popOldestLocked.deliver dgm wire.popOldestLocked_room, .ok true)
      else some (wire.countDrop, .ok false)
  else some (wire.deliver dgm (room_of_not_full hfull), .ok true)

/-- `Receive`; a closed wire still hands out what it holds. -/
def receive [Inhabited α] (wire : Wire α) (ctxDone : Bool) : Option (Wire α × Except WireError α) :=
  if ctxDone then some (wire, .error .ctx)
  else if wire.ring.count = 0 ∧ wire.closed = false then none
  else if wire.ring.count = 0 then some (wire, .error .closed)
  else some (wire.popOldestLocked, .ok (wire.ring.slot 0))

def close (wire : Wire α) : Wire α := { wire with closed := true }

@[simp] theorem length_queue : wire.queue.length = wire.depth := by
  simp [queue, depth]

@[simp] theorem queue_newWire [Inhabited α] : (newWire cfg : Wire α).queue = [] := rfl

@[simp] theorem queue_deliver (dgm : α) (hroom : wire.ring.count < wire.ring.capacity) :
    (wire.deliver dgm hroom).queue = wire.queue ++ [dgm] :=
  wire.ring.contents_push dgm hroom

@[simp] theorem queue_popOldestLocked [Inhabited α] :
    wire.popOldestLocked.queue = wire.queue.tail :=
  wire.ring.contents_pop default

@[simp] theorem queue_countDrop : wire.countDrop.queue = wire.queue := rfl

@[simp] theorem queue_countSample : wire.countSample.queue = wire.queue := rfl

theorem queue_ne_nil_of_full {wire : Wire α} (hfull : wire.full = true) : wire.queue ≠ [] := by
  have hpos := wire.ring.capacity_pos
  have hcapacity := wire.capacity_eq
  simp only [full, decide_eq_true_eq] at hfull
  intro hnil
  have hlength := wire.length_queue
  rw [hnil, List.length_nil, depth] at hlength
  omega

end Wire

end DataPipe.Bus
