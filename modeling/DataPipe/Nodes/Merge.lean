import Mathlib.Algebra.Order.Group.Multiset
import Mathlib.Tactic.Abel
import DataPipe.Foundation.Duration
import DataPipe.Foundation.Run

/-!
# Joining two inputs

The `merge` node in the mode "join": a datagram waits under its key until one with the
same key arrives at the other port, or until the window has passed.
-/

set_option linter.dupNamespace false

namespace DataPipe.Nodes.Merge

open DataPipe.Foundation

variable {D : Type}

inductive Port where
  | a
  | b
  deriving DecidableEq, Repr

inductive JoinType where
  | inner
  | left
  deriving DecidableEq, Repr

/-- A `pendingItem` with the key that it is stored under. -/
structure Item (D : Type) where
  key : String
  datagram : D
  arrived : Int
  deriving DecidableEq, Repr

/-- `combinedDatagram` of two items, or `combinedDatagramNilB` of one, made at a time. -/
inductive Output (D : Type) where
  | combined (a b : Item D)
  | nilB (a : Item D) (now : Int)
  deriving DecidableEq, Repr

namespace Output

def a : Output D → Item D
  | .combined a _ => a
  | .nilB a _ => a

def b : Output D → Option (Item D)
  | .combined _ b => some b
  | .nilB _ _ => none

end Output

/-- The orders in which a map may be iterated, one for each time. -/
structure MapOrder (D : Type) where
  order : Nat → List (Item D) → List (Item D)
  perm : ∀ n items, (order n items).Perm items

/-- The key is what the expression gives, or its error. -/
structure Arrival (D : Type) where
  port : Port
  key : Except String String
  datagram : D
  now : Int

/-- The maps of the node, with what it has received under a key and what it has emitted. -/
structure Join (D : Type) where
  pendingA : List (Item D)
  pendingB : List (Item D)
  outputs : List (Output D)
  receivedA : List (Item D)
  receivedB : List (Item D)
  clock : Int
  deriving DecidableEq, Repr

def find (key : String) (items : List (Item D)) : Option (Item D) :=
  items.find? (·.key = key)

def delete (key : String) (items : List (Item D)) : List (Item D) :=
  items.filter (·.key ≠ key)

def store (item : Item D) (items : List (Item D)) : List (Item D) :=
  item :: delete item.key items

namespace Join

def start : Join D := ⟨[], [], [], [], [], 0⟩

def receive (j : Join D) (port : Port) (item : Item D) : Join D :=
  match port with
  | .a => { j with receivedA := j.receivedA ++ [item], clock := item.arrived }
  | .b => { j with receivedB := j.receivedB ++ [item], clock := item.arrived }

/-- `processJoin` from the lookup of the match on; a match that is too old is evicted. -/
def arrive (j : Join D) (window : Int) (port : Port) (item : Item D) : Join D :=
  match port with
  | .a =>
    match find item.key j.pendingB with
    | none => { j with pendingA := store item j.pendingA }
    | some m =>
      if elapsed item.arrived m.arrived ≤ window then
        { j with
          pendingB := delete item.key j.pendingB
          outputs := j.outputs ++ [.combined item m] }
      else
        { j with
          pendingA := store item j.pendingA
          pendingB := delete item.key j.pendingB }
  | .b =>
    match find item.key j.pendingA with
    | none => { j with pendingB := store item j.pendingB }
    | some m =>
      if elapsed item.arrived m.arrived ≤ window then
        { j with
          pendingA := delete item.key j.pendingA
          outputs := j.outputs ++ [.combined m item] }
      else
        { j with
          pendingA := delete item.key j.pendingA
          pendingB := store item j.pendingB }

def stale (window now : Int) (item : Item D) : Bool := window < elapsed now item.arrived

def expireStale (j : Join D) (env : MapOrder D) (joinType : JoinType) (window now : Int) : Join D :=
  { j with
    pendingA := j.pendingA.filter (!stale window now ·)
    pendingB := j.pendingB.filter (!stale window now ·)
    outputs := j.outputs ++
      match joinType with
      | .inner => []
      | .left =>
        (env.order j.outputs.length (j.pendingA.filter (stale window now))).map (.nilB · now) }

/-- The clock does not run backwards. -/
def processJoin (env : MapOrder D) (joinType : JoinType) (window : Int) (j : Join D)
    (arrival : Arrival D) : Option (Join D) :=
  if arrival.now < j.clock then none
  else
    match arrival.key with
    | .error _ => some { j with clock := arrival.now }
    | .ok key =>
      let item : Item D := ⟨key, arrival.datagram, arrival.now⟩
      some (((j.receive arrival.port item).arrive window arrival.port item).expireStale
        env joinType window arrival.now)

/-- A left datagram does not arrive while another one waits under its key, and a right one does
not find a left one that is too old. -/
def undisturbed (windowMs : Int) (j : Join D) (arrival : Arrival D) : Bool :=
  match arrival.key with
  | .error _ => true
  | .ok key =>
    j.pendingA.all fun item => item.key != key ||
      match arrival.port with
      | .a => false
      | .b => decide (arrival.now - item.arrived ≤ windowMs * 1000000)

end Join

/-- Paired within the window, or alone when the window has passed. -/
def Output.Correct (windowMs : Int) : Output D → Prop
  | .combined a b => a.key = b.key ∧ a.arrived - b.arrived ≤ windowMs * 1000000 ∧
      b.arrived - a.arrived ≤ windowMs * 1000000
  | .nilB a now => windowMs * 1000000 < now - a.arrived

structure Join.LeftJoined (windowMs : Int) (j : Join D) : Prop where
  conserved : (j.receivedA : Multiset (Item D)) = j.pendingA + (j.outputs.map Output.a)
  used : ((j.outputs.filterMap Output.b : List (Item D)) : Multiset (Item D)) ≤ j.receivedB
  correct : ∀ out ∈ j.outputs, out.Correct windowMs

section Items

variable {items : List (Item D)} {key : String} {m : Item D}

theorem key_of_find (hfind : find key items = some m) : m.key = key ∧ m ∈ items :=
  ⟨by simpa using List.find?_some hfind, List.mem_of_find?_eq_some hfind⟩

theorem delete_of_forall_ne (h : ∀ item ∈ items, item.key ≠ key) : delete key items = items :=
  List.filter_eq_self.mpr fun item hitem => decide_eq_true (h item hitem)

theorem coe_eq_of_find (hunique : (items.map Item.key).Nodup) (hfind : find key items = some m) :
    (items : Multiset (Item D)) = {m} + (delete key items : Multiset (Item D)) := by
  induction items with
  | nil => cases hfind
  | cons item items ih =>
    rw [List.map_cons, List.nodup_cons] at hunique
    by_cases hkey : item.key = key
    · have hrest : ∀ other ∈ items, other.key ≠ key := by
        intro other hother hsame
        exact hunique.1 (List.mem_map.mpr ⟨other, hother, hsame.trans hkey.symm⟩)
      have hdelete : delete key (item :: items) = items := by
        rw [delete, List.filter_cons_of_neg (by simp [hkey])]
        exact delete_of_forall_ne hrest
      rw [find, List.find?_cons_of_pos (by simp [hkey])] at hfind
      cases hfind
      rw [hdelete]
      rfl
    · rw [find, List.find?_cons_of_neg (by simp [hkey])] at hfind
      have hdelete : delete key (item :: items) = item :: delete key items :=
        List.filter_cons_of_pos (by simp [hkey])
      rw [hdelete, ← Multiset.cons_coe, ← Multiset.cons_coe, ih hunique.2 hfind, Multiset.add_cons]

theorem nodup_filter (hunique : (items.map Item.key).Nodup) (p : Item D → Bool) :
    ((items.filter p).map Item.key).Nodup :=
  hunique.sublist (List.filter_sublist.map _)

theorem nodup_store (hunique : (items.map Item.key).Nodup) (item : Item D) :
    ((store item items).map Item.key).Nodup := by
  rw [store, List.map_cons, List.nodup_cons]
  refine ⟨?_, nodup_filter hunique _⟩
  rintro hmem
  obtain ⟨other, hother, hsame⟩ := List.mem_map.mp hmem
  exact of_decide_eq_true (List.mem_filter.mp hother).2 hsame

theorem coe_store_le (item : Item D) :
    (store item items : Multiset (Item D)) ≤ {item} + (items : Multiset (Item D)) := by
  exact Multiset.add_le_add_left (Multiset.coe_le.mpr List.filter_sublist.subperm)

end Items

structure Join.Sound (windowMs : Int) (j : Join D) : Prop where
  uniqueA : (j.pendingA.map Item.key).Nodup
  uniqueB : (j.pendingB.map Item.key).Nodup
  arrivedA : ∀ item ∈ j.pendingA, item.arrived ≤ j.clock
  arrivedB : ∀ item ∈ j.pendingB, item.arrived ≤ j.clock
  conserved : (j.receivedA : Multiset (Item D)) = j.pendingA + (j.outputs.map Output.a)
  held : (j.pendingB : Multiset (Item D)) + (j.outputs.filterMap Output.b : List (Item D)) ≤
    j.receivedB
  correct : ∀ out ∈ j.outputs, out.Correct windowMs

namespace Join

variable {windowMs : Int} {j : Join D} {item : Item D}

theorem Sound.expireStale (hj : j.Sound windowMs) (env : MapOrder D) (now : Int) :
    (j.expireStale env .left (windowMs * 1000000) now).Sound windowMs := by
  have hperm := env.perm j.outputs.length (j.pendingA.filter (stale (windowMs * 1000000) now))
  refine ⟨nodup_filter hj.uniqueA _, nodup_filter hj.uniqueB _,
    fun item h => hj.arrivedA item (List.mem_of_mem_filter h),
    fun item h => hj.arrivedB item (List.mem_of_mem_filter h), ?_, ?_, ?_⟩
  · have hsplit := Multiset.coe_eq_coe.mpr
      (List.filter_append_perm (stale (windowMs * 1000000) now) j.pendingA)
    have hmap : ∀ items : List (Item D), (items.map (.nilB · now)).map Output.a = items := by
      intro items
      rw [List.map_map]
      exact List.map_id items
    dsimp only [Join.expireStale]
    rw [List.map_append, hmap, ← Multiset.coe_add, Multiset.coe_eq_coe.mpr hperm, hj.conserved,
      ← hsplit, ← Multiset.coe_add]
    abel
  · have hnone : ∀ items : List (Item D), (items.map (.nilB · now)).filterMap Output.b = [] := by
      intro items
      rw [List.filterMap_map]
      exact List.filterMap_eq_nil_iff.mpr fun _ _ => rfl
    dsimp only [Join.expireStale]
    rw [List.filterMap_append, hnone, List.append_nil]
    exact (Multiset.add_le_add_right
      (Multiset.coe_le.mpr List.filter_sublist.subperm)).trans hj.held
  · intro out hout
    rcases List.mem_append.mp hout with hold | hnew
    · exact hj.correct out hold
    · obtain ⟨item, hitem, rfl⟩ := List.mem_map.mp hnew
      have hstale := of_decide_eq_true (List.mem_filter.mp (hperm.mem_iff.mp hitem)).2
      exact hstale.trans_le (min_le_left _ _)

section Arrive

variable (hj : j.Sound windowMs) (hclock : j.clock ≤ item.arrived)

include hj hclock

theorem Sound.storeA (hfree : ∀ other ∈ j.pendingA, other.key ≠ item.key)
    {pendingB : List (Item D)} (hsub : pendingB.Sublist j.pendingB) :
    ({ j with
      pendingA := store item j.pendingA
      pendingB := pendingB
      receivedA := j.receivedA ++ [item]
      clock := item.arrived } : Join D).Sound windowMs := by
  refine ⟨nodup_store hj.uniqueA item, hj.uniqueB.sublist (hsub.map _), ?_,
    fun other h => (hj.arrivedB other (hsub.subset h)).trans hclock, ?_, ?_, hj.correct⟩
  · rw [store, delete_of_forall_ne hfree]
    intro other hother
    rcases List.mem_cons.mp hother with rfl | hother
    · exact le_rfl
    · exact (hj.arrivedA other hother).trans hclock
  · rw [store, delete_of_forall_ne hfree, ← Multiset.coe_add, Multiset.coe_singleton,
      hj.conserved, ← Multiset.cons_coe, ← Multiset.singleton_add]
    abel
  · exact (Multiset.add_le_add_right (Multiset.coe_le.mpr hsub.subperm)).trans hj.held

theorem Sound.storeB :
    ({ j with
      pendingB := store item j.pendingB
      receivedB := j.receivedB ++ [item]
      clock := item.arrived } : Join D).Sound windowMs := by
  refine ⟨hj.uniqueA, nodup_store hj.uniqueB item,
    fun other h => (hj.arrivedA other h).trans hclock, ?_, hj.conserved, ?_, hj.correct⟩
  · intro other hother
    rcases List.mem_cons.mp hother with rfl | hother
    · exact le_rfl
    · exact (hj.arrivedB other (List.mem_of_mem_filter hother)).trans hclock
  · calc _ ≤ {item} + (j.pendingB : Multiset (Item D)) +
          (j.outputs.filterMap Output.b : List (Item D)) :=
          Multiset.add_le_add_right (coe_store_le item)
      _ ≤ {item} + (j.receivedB : Multiset (Item D)) := by
          exact Multiset.add_le_add_left hj.held
      _ = _ := add_comm _ _

variable {m : Item D} (hw : windowMs * 1000000 < 0x7fffffffffffffff)
  (hfresh : elapsed item.arrived m.arrived ≤ windowMs * 1000000)

include hw hfresh

theorem Sound.pairB (hfind : find item.key j.pendingB = some m) :
    ({ j with
      pendingB := delete item.key j.pendingB
      outputs := j.outputs ++ [.combined item m]
      receivedA := j.receivedA ++ [item]
      clock := item.arrived } : Join D).Sound windowMs := by
  obtain ⟨hkey, hmem⟩ := key_of_find hfind
  have harrived := hj.arrivedB m hmem
  rw [elapsed_le_iff hw] at hfresh
  refine ⟨hj.uniqueA, nodup_filter hj.uniqueB _,
    fun other h => (hj.arrivedA other h).trans hclock,
    fun other h => (hj.arrivedB other (List.mem_of_mem_filter h)).trans hclock, ?_, ?_, ?_⟩
  · rw [← Multiset.coe_add, hj.conserved, List.map_append, add_assoc]
    rfl
  · have hheld := hj.held
    rw [coe_eq_of_find hj.uniqueB hfind] at hheld
    rw [List.filterMap_append, ← Multiset.coe_add]
    refine le_trans (le_of_eq ?_) hheld
    abel
  · intro out hout
    rcases List.mem_append.mp hout with hold | hnew
    · exact hj.correct out hold
    · rw [List.mem_singleton.mp hnew]
      exact ⟨hkey.symm, hfresh, by omega⟩

theorem Sound.pairA (hfind : find item.key j.pendingA = some m) :
    ({ j with
      pendingA := delete item.key j.pendingA
      outputs := j.outputs ++ [.combined m item]
      receivedB := j.receivedB ++ [item]
      clock := item.arrived } : Join D).Sound windowMs := by
  obtain ⟨hkey, hmem⟩ := key_of_find hfind
  have harrived := hj.arrivedA m hmem
  rw [elapsed_le_iff hw] at hfresh
  refine ⟨nodup_filter hj.uniqueA _, hj.uniqueB,
    fun other h => (hj.arrivedA other (List.mem_of_mem_filter h)).trans hclock,
    fun other h => (hj.arrivedB other h).trans hclock, ?_, ?_, ?_⟩
  · rw [hj.conserved, coe_eq_of_find hj.uniqueA hfind, List.map_append, ← Multiset.coe_add]
    change _ = _ + (_ + {m})
    abel
  · rw [List.filterMap_append, ← Multiset.coe_add, ← add_assoc]
    exact Multiset.add_le_add_right hj.held
  · intro out hout
    rcases List.mem_append.mp hout with hold | hnew
    · exact hj.correct out hold
    · rw [List.mem_singleton.mp hnew]
      exact ⟨hkey, by omega, hfresh⟩

omit hfresh in
theorem Sound.arrive (port : Port)
    (hok : ∀ other ∈ j.pendingA, other.key = item.key →
      port = .b ∧ item.arrived - other.arrived ≤ windowMs * 1000000) :
    ((j.receive port item).arrive (windowMs * 1000000) port item).Sound windowMs := by
  unfold Join.arrive receive
  cases port with
  | a =>
    have hfree : ∀ other ∈ j.pendingA, other.key ≠ item.key :=
      fun other hother hsame => nomatch (hok other hother hsame).1
    dsimp only
    split
    · exact hj.storeA hclock hfree (List.Sublist.refl _)
    next m hfind =>
      split
      next hfresh => exact hj.pairB hclock hw hfresh hfind
      · exact hj.storeA hclock hfree List.filter_sublist
  | b =>
    dsimp only
    split
    · exact hj.storeB hclock
    next m hfind =>
      split
      next hfresh => exact hj.pairA hclock hw hfresh hfind
      next hstale =>
        obtain ⟨hsame, hmem⟩ := key_of_find hfind
        rw [elapsed_le_iff hw] at hstale
        exact absurd (hok m hmem hsame).2 hstale

end Arrive

theorem Sound.processJoin {env : MapOrder D} {arrival : Arrival D} {next : Join D}
    (hw : windowMs * 1000000 < 0x7fffffffffffffff) (hj : j.Sound windowMs)
    (hok : j.undisturbed windowMs arrival = true)
    (hstep : j.processJoin env .left (windowMs * 1000000) arrival = some next) :
    next.Sound windowMs := by
  unfold Join.processJoin at hstep
  split at hstep
  · cases hstep
  rename_i hclock
  have hclock := Int.not_lt.mp hclock
  split at hstep
  · cases hstep
    exact ⟨hj.uniqueA, hj.uniqueB, fun item h => (hj.arrivedA item h).trans hclock,
      fun item h => (hj.arrivedB item h).trans hclock, hj.conserved, hj.held, hj.correct⟩
  rename_i key hkey
  cases hstep
  refine (hj.arrive hclock hw arrival.port ?_).expireStale env arrival.now
  intro other hother hsame
  unfold undisturbed at hok
  rw [hkey, List.all_eq_true] at hok
  have hother := hok other hother
  cases hport : arrival.port <;> simp_all

end Join

/--
As long as no left datagram arrives while another waits under its key, and no right one finds a
left one that is too old, every left datagram is pending or in exactly one output, and every
right one in at most one.
-/
theorem left_join_conserves {env : MapOrder D} {windowMs : Int} (hpos : 0 < windowMs)
    (hwindow : windowMs ≤ 9223372036854) {arrivals : List (Arrival D)} {j : Join D}
    (hmeets : Meets (Join.processJoin env .left (milliseconds windowMs))
      (fun j arrival => j.undisturbed windowMs arrival = true) Join.start arrivals)
    (hrun : run (Join.processJoin env .left (milliseconds windowMs)) Join.start arrivals = some j) :
    j.LeftJoined windowMs := by
  obtain ⟨hsame, hw⟩ := milliseconds_eq hpos hwindow
  have hstart : (Join.start : Join D).Sound windowMs :=
    ⟨List.nodup_nil, List.nodup_nil, nofun, nofun, rfl, le_rfl, nofun⟩
  rw [hsame] at hmeets hrun
  have hsound := run_invariant_of_meets
    (fun hj hok hstep => Join.Sound.processJoin hw hj hok hstep) hstart hmeets hrun
  exact ⟨hsound.conserved, (Multiset.le_add_left _ _).trans hsound.held, hsound.correct⟩

def inOrder : MapOrder Nat := ⟨fun _ items => items, fun _ items => List.Perm.refl items⟩

def joinTwo (port : Port) : List (Arrival Nat) := [⟨.a, .ok "k", 1, 0⟩, ⟨port, .ok "k", 2, 5⟩]

theorem pair_is_conserved :
    ∃ j, run (Join.processJoin inOrder .left (milliseconds 10)) Join.start (joinTwo .b) = some j ∧
      j.outputs = [.combined ⟨"k", 1, 0⟩ ⟨"k", 2, 5⟩] ∧ j.LeftJoined 10 :=
  exists_some_and (by decide) fun _ hrun _ =>
    left_join_conserves (by decide) (by decide) (by decide) hrun

theorem repeated_key_loses_first :
    ∃ j, run (Join.processJoin inOrder .left (milliseconds 10)) Join.start (joinTwo .a) = some j ∧
      ¬ j.LeftJoined 10 := by
  refine ⟨⟨[⟨"k", 2, 5⟩], [], [], [⟨"k", 1, 0⟩, ⟨"k", 2, 5⟩], [], 5⟩, by decide, ?_⟩
  intro h
  have hcard := congrArg Multiset.card h.conserved
  exact absurd hcard (by decide)

end DataPipe.Nodes.Merge
