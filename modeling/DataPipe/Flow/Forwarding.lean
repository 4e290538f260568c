import DataPipe.StoreForward.Drain

/-!
# Store and forward

The model of a processor with one input and the policy `storeForward` in
`engine/flow/runner.go`.  The receive loop invokes the node for every datagram
that arrives and appends it to the durable queue when the invocation fails; the
drain goroutine invokes the node for the entries of the queue.  The two share
the queue and nothing else.
-/

set_option linter.dupNamespace false

namespace DataPipe.Flow

open DataPipe.Foundation DataPipe.StoreForward

inductive ReceivePc where
  | receive
  | invoke (n : Nat)
  | store (n : Nat)
  deriving DecidableEq, Repr

/--
`origin` is the number of the datagram of an entry.  `succeeded` holds the numbers
of the datagrams for which an invocation succeeded, in that order, and `lost` those
that expired, could not be stored or were dropped from the queue.
-/
structure Forwarder where
  drain : DrainState
  arrived : Nat
  loop : ReceivePc
  origin : Name → Nat
  succeeded : List Nat
  lost : List Nat

/--
`receive` takes the next datagram from the inbox, `invoked` is the answer of the
node to the receive loop, `store` the call of `storeForward` (without a payload
when the datagram cannot be marshalled).  `drain` is the next step of the drain
goroutine; a corrupt entry is reported as delivered without an invocation.
-/
inductive ForwardAction where
  | receive (expired : Bool)
  | invoked (ok : Bool)
  | store (payload : Option (List UInt8)) (enqueuedAt : Int) (fault : Fault)
  | drain (answer corrupt : Bool)
  | cancel

namespace Forwarder

def start (queue : Queue) (disk : Disk) : Forwarder where
  drain := .start queue disk
  arrived := queue.order.length
  loop := .receive
  origin := fun id => queue.order.idxOf id
  succeeded := []
  lost := []

def missing (entries : List Name) (drain : DrainState) : List Name :=
  entries.filter fun id => !drain.undelivered.contains id

def step (dir : Dir) (s : Forwarder) : ForwardAction → Option Forwarder
  | .receive expired =>
    match s.loop with
    | .receive =>
      if expired then some { s with arrived := s.arrived + 1, lost := s.lost ++ [s.arrived] }
      else some { s with arrived := s.arrived + 1, loop := .invoke s.arrived }
    | _ => none
  | .invoked ok =>
    match s.loop with
    | .invoke n =>
      if ok then some { s with loop := .receive, succeeded := s.succeeded ++ [n] }
      else some { s with loop := .store n }
    | _ => none
  | .store payload enqueuedAt fault =>
    match s.loop, payload with
    | .store n, none => some { s with loop := .receive, lost := s.lost ++ [n] }
    | .store n, some data =>
      match s.drain.step dir (.enqueue data enqueuedAt fault) with
      | none => none
      | some drain =>
        let id := seqName s.drain.queue.nextSeq
        let origin := Function.update s.origin id n
        some { s with
          drain, origin
          loop := .receive
          lost := s.lost ++ (missing (s.drain.undelivered ++ [id]) drain).map origin }
    | _, _ => none
  | .drain answer corrupt =>
    match s.drain.drain dir answer with
    | none => none
    | some drain =>
      match s.drain.held, answer && !corrupt with
      | some id, true =>
        some { s with drain, succeeded := s.succeeded ++ [s.origin id] }
      | _, _ =>
        some { s with
          drain
          lost := s.lost ++ (missing s.drain.undelivered drain).map s.origin }
  | .cancel => some { s with drain := { s.drain with ctxDone := true } }

attribute [local simp] step

def Pending (s : Forwarder) (n : Nat) : Prop :=
  (∃ id ∈ s.drain.undelivered, s.origin id = n) ∨ s.loop = .invoke n ∨ s.loop = .store n

def Accounted (s : Forwarder) (n : Nat) : Prop :=
  n ∈ s.succeeded ∨ n ∈ s.lost ∨ s.Pending n

/--
Invocations succeed in the order of arrival, nothing overtakes the queue, and a
datagram that is neither lost nor still pending has had its successful invocation.
-/
structure InArrivalOrder (s : Forwarder) : Prop where
  increasing : s.succeeded.Pairwise (· < ·)
  behind : ∀ n ∈ s.succeeded, ∀ id ∈ s.drain.undelivered, n < s.origin id
  accounted : ∀ n < s.arrived, s.Accounted n

def caughtUp (s : Forwarder) : ForwardAction → Bool
  | .receive false => s.drain.undelivered.isEmpty && s.drain.held.isNone
  | _ => true

/-- The receive loop has a datagram in hand that is newer than everything delivered. -/
structure Alone (s : Forwarder) (n : Nat) : Prop where
  undelivered : s.drain.undelivered = []
  held : s.drain.held = none
  arrived : n < s.arrived
  newest : ∀ m ∈ s.succeeded, m < n

structure Sound (s : Forwarder) : Prop where
  drain : s.drain.Sound
  ordered : (s.drain.backlog s.origin s.succeeded).Ordered
  apart : s.drain.HeldApart s.origin
  succeeded : ∀ n ∈ s.succeeded, n < s.arrived
  queued : ∀ id, id ∈ s.drain.undelivered ∨ s.drain.held = some id → s.origin id < s.arrived
  alone : ∀ n, s.loop = .invoke n ∨ s.loop = .store n → s.Alone n
  accounted : ∀ n < s.arrived, s.Accounted n

theorem pairwise_idxOf {α : Type} [BEq α] [LawfulBEq α] {items : List α} (h : items.Nodup) :
    (items.map fun item => items.idxOf item).Pairwise (· < ·) := by
  rw [List.pairwise_iff_getElem]
  simp [h.idxOf_getElem]

theorem sound_start {disk : Disk} (hdistinct : DistinctSeqs disk) (maxSizeBytes maxAge : Int) :
    (start (openQueue disk maxSizeBytes maxAge) disk).Sound where
  drain := DrainState.sound_start hdistinct maxSizeBytes maxAge disk
  ordered := Backlog.ordered_of_waiting
    (pairwise_idxOf (numbered_openQueue hdistinct maxSizeBytes maxAge).nodup)
  apart := by simp [DrainState.HeldApart, start, DrainState.start, DrainState.held]
  succeeded := by simp [start]
  queued := by
    rintro id (hid | hid)
    · exact List.idxOf_lt_length_of_mem hid
    · contradiction
  alone := by simp [start]
  accounted := by
    intro n hn
    have hnodup := (numbered_openQueue hdistinct maxSizeBytes maxAge).nodup
    exact .inr (.inr (.inl ⟨_, List.getElem_mem hn, hnodup.idxOf_getElem n hn⟩))

variable {dir : Dir} {s s' : Forwarder} {n : Nat}

theorem Accounted.step (h : s.Accounted n) (hsucceeded : s.succeeded ⊆ s'.succeeded)
    (hlost : s.lost ⊆ s'.lost) (hqueued : ∀ id ∈ s.drain.undelivered, s'.Accounted (s.origin id))
    (hloop : s.loop = .invoke n ∨ s.loop = .store n → s'.Accounted n) : s'.Accounted n := by
  rcases h with h | h | ⟨id, hid, rfl⟩ | h
  · exact .inl (hsucceeded h)
  · exact .inr (.inl (hlost h))
  · exact hqueued id hid
  · exact hloop h

theorem sound_receive {expired : Bool} (hs : s.Sound) (hok : s.caughtUp (.receive expired) = true)
    (hstep : s.step dir (.receive expired) = some s') : s'.Sound := by
  simp only [step] at hstep
  split at hstep
  case h_2 => contradiction
  case h_1 hloop =>
    have hsucceeded : ∀ n ∈ s.succeeded, n < s.arrived + 1 :=
      fun n hn => Nat.lt_succ_of_lt (hs.succeeded n hn)
    have hqueued : ∀ id, id ∈ s.drain.undelivered ∨ s.drain.held = some id →
        s.origin id < s.arrived + 1 := fun id hid => Nat.lt_succ_of_lt (hs.queued id hid)
    split at hstep
    case isTrue =>
      cases hstep
      refine ⟨hs.drain, hs.ordered, hs.apart, hsucceeded, hqueued, by simp [hloop], ?_⟩
      intro n hn
      rcases Nat.lt_succ_iff_lt_or_eq.mp hn with hold | rfl
      · exact (hs.accounted n hold).step (List.Subset.refl _) (List.subset_append_left _ _)
          (fun id hid => .inr (.inr (.inl ⟨id, hid, rfl⟩))) (by simp [hloop])
      · exact .inr (.inl (by simp))
    case isFalse hlive =>
      cases hstep
      rw [Bool.not_eq_true] at hlive
      subst hlive
      simp only [caughtUp, Bool.and_eq_true, List.isEmpty_iff, Option.isNone_iff_eq_none] at hok
      refine ⟨hs.drain, hs.ordered, hs.apart, hsucceeded, hqueued, ?_, ?_⟩
      · rintro n (hn | hn)
        · cases hn
          exact ⟨hok.1, hok.2, Nat.lt_succ_self _, hs.succeeded⟩
        · contradiction
      · intro n hn
        rcases Nat.lt_succ_iff_lt_or_eq.mp hn with hold | rfl
        · exact (hs.accounted n hold).step (List.Subset.refl _) (List.Subset.refl _)
            (fun id hid => .inr (.inr (.inl ⟨id, hid, rfl⟩))) (by simp [hloop])
        · exact .inr (.inr (.inr (.inl rfl)))

theorem Sound.pushed (hs : s.Sound) (hn : s.loop = .invoke n ∨ s.loop = .store n) :
    Backlog.Ordered ⟨[n], none, s.succeeded⟩ := by
  have halone := hs.alone n hn
  have hordered := hs.ordered
  rw [DrainState.backlog, halone.undelivered, halone.held] at hordered
  exact hordered.push (by simp) halone.newest (by simp)

theorem sound_invoked {ok : Bool} (hs : s.Sound)
    (hstep : s.step dir (.invoked ok) = some s') : s'.Sound := by
  simp only [step] at hstep
  split at hstep
  case h_2 => contradiction
  case h_1 n hloop =>
    have halone := hs.alone n (.inl hloop)
    split at hstep
    case isTrue =>
      cases hstep
      refine ⟨hs.drain, ?_, hs.apart, ?_, hs.queued, by simp, ?_⟩
      · have hdone := ((hs.pushed (.inl hloop)).take rfl).complete rfl (List.nil_sublist [n])
          List.not_mem_nil
        simpa [DrainState.backlog, halone.undelivered, halone.held] using hdone
      · intro m hm
        rcases List.mem_append.mp hm with hold | hnew
        · exact hs.succeeded m hold
        · rw [List.mem_singleton.mp hnew]
          exact halone.arrived
      · intro m hm
        exact (hs.accounted m hm).step (List.subset_append_left _ _) (List.Subset.refl _)
          (fun id hid => .inr (.inr (.inl ⟨id, hid, rfl⟩))) fun h => .inl (by simp_all)
    case isFalse =>
      cases hstep
      refine ⟨hs.drain, hs.ordered, hs.apart, hs.succeeded, hs.queued, ?_, ?_⟩
      · rintro m (hm | hm)
        · contradiction
        · cases hm
          exact ⟨halone.undelivered, halone.held, halone.arrived, halone.newest⟩
      · intro m hm
        exact (hs.accounted m hm).step (List.Subset.refl _) (List.Subset.refl _)
          (fun id hid => .inr (.inr (.inl ⟨id, hid, rfl⟩)))
          fun h => .inr (.inr (.inr (.inr (by simp_all))))

variable {drain : DrainState}

theorem mem_or_missing {entries : List Name} {id : Name} (hid : id ∈ entries) :
    id ∈ drain.undelivered ∨ id ∈ missing entries drain := by
  by_cases h : id ∈ drain.undelivered
  · exact .inl h
  · exact .inr (by simp [missing, hid, h])

theorem sound_store {payload : Option (List UInt8)} {enqueuedAt : Int} {fault : Fault}
    (hs : s.Sound) (hstep : s.step dir (.store payload enqueuedAt fault) = some s') : s'.Sound := by
  simp only [step] at hstep
  split at hstep
  case h_3 => contradiction
  case h_1 n hloop =>
    cases hstep
    refine ⟨hs.drain, hs.ordered, hs.apart, hs.succeeded, hs.queued, by simp, ?_⟩
    intro m hm
    exact (hs.accounted m hm).step (List.Subset.refl _) (List.subset_append_left _ _)
      (fun id hid => .inr (.inr (.inl ⟨id, hid, rfl⟩))) fun h => .inr (.inl (by simp_all))
  case h_2 n data hloop =>
    have halone := hs.alone n (.inr hloop)
    split at hstep
    · contradiction
    next drain henqueue =>
      have hdrain := DrainState.sound_step hs.drain henqueue
      obtain ⟨hheld, hsub⟩ := DrainState.held_of_enqueue hs.drain henqueue
      rw [halone.undelivered, List.nil_append] at hsub
      rw [halone.held] at hheld
      cases hstep
      have hnew : ∀ id ∈ drain.undelivered,
          Function.update s.origin (seqName s.drain.queue.nextSeq) n id = n := by
        intro id hid
        rw [List.mem_singleton.mp (hsub.subset hid)]
        exact Function.update_self _ _ _
      refine ⟨hdrain, ?_, ?_, hs.succeeded, ?_, by simp, ?_⟩
      · have hmapped := hsub.map (Function.update s.origin (seqName s.drain.queue.nextSeq) n)
        rw [List.map_singleton, Function.update_self] at hmapped
        have hqueued := (hs.pushed (.inr hloop)).drop hmapped
        simpa [DrainState.backlog, hheld] using hqueued
      · simp [DrainState.HeldApart, hheld]
      · rintro id (hid | hid)
        · dsimp only
          rw [hnew id hid]
          exact halone.arrived
        · rw [hheld] at hid
          contradiction
      · intro m hm
        refine (hs.accounted m hm).step (List.Subset.refl _) (List.subset_append_left _ _)
          (by simp [halone.undelivered]) ?_
        rw [hloop]
        rintro (h | h) <;> cases h
        have hlast : seqName s.drain.queue.nextSeq ∈
            s.drain.undelivered ++ [seqName s.drain.queue.nextSeq] := by simp
        rcases mem_or_missing hlast with h | h
        · exact .inr (.inr (.inl ⟨_, h, Function.update_self _ _ _⟩))
        · exact .inr (.inl (List.mem_append_right _
            (List.mem_map.mpr ⟨_, h, Function.update_self _ _ _⟩)))

theorem Alone.drained (h : s.Alone n) (hturn : s.drain.Turn drain) :
    drain.undelivered = [] ∧ drain.held = none := by
  have hnone : ∀ id, ¬ (id ∈ drain.undelivered ∨ drain.held = some id) := by
    intro id hid
    simpa [h.undelivered, h.held] using hturn.mem hid
  refine ⟨List.eq_nil_iff_forall_not_mem.mpr fun id hid => hnone id (.inl hid), ?_⟩
  exact Option.eq_none_iff_forall_ne_some.mpr fun id hid => hnone id (.inr hid)

theorem sound_drain {answer corrupt : Bool} (hs : s.Sound)
    (hstep : s.step dir (.drain answer corrupt) = some s') : s'.Sound := by
  simp only [step] at hstep
  split at hstep
  · contradiction
  rename_i drain hdrain
  have hturn := DrainState.turn_of_drain hdrain
  have hsound := DrainState.sound_drain hs.drain hdrain
  have hqueued : ∀ id, id ∈ drain.undelivered ∨ drain.held = some id →
      s.origin id < s.arrived := fun id hid => hs.queued id (hturn.mem hid)
  split at hstep
  case h_1 id hheld hanswer =>
    cases hstep
    simp only [Bool.and_eq_true] at hanswer
    obtain ⟨hundelivered, hgone⟩ := DrainState.delivery_of_drain hdrain hheld hanswer.1
    refine ⟨hsound, ?_, hturn.heldApart hs.ordered, ?_, hqueued, ?_, ?_⟩
    · exact DrainState.ordered_of_delivery hs.ordered hs.drain.nodup hs.apart hheld
        hundelivered hgone
    · intro m hm
      rcases List.mem_append.mp hm with hold | hnew
      · exact hs.succeeded m hold
      · rw [List.mem_singleton.mp hnew]
        exact hs.queued id (.inr hheld)
    · intro n hn
      have halone := hs.alone n hn
      rw [halone.held] at hheld
      contradiction
    · intro m hm
      refine (hs.accounted m hm).step (List.subset_append_left _ _) (List.Subset.refl _) ?_
        fun h => .inr (.inr (.inr h))
      intro other hother
      by_cases hsame : other = id
      · exact .inl (by simp [hsame])
      · have hstays : other ∈ drain.undelivered := by
          rw [hundelivered]
          exact (List.mem_erase_of_ne hsame).mpr hother
        exact .inr (.inr (.inl ⟨other, hstays, rfl⟩))
  case h_2 =>
    cases hstep
    refine ⟨hsound, hturn.ordered hs.ordered, hturn.heldApart hs.ordered, hs.succeeded,
      hqueued, ?_, ?_⟩
    · intro n hn
      have halone := hs.alone n hn
      obtain ⟨hundelivered, hheld⟩ := halone.drained hturn
      exact ⟨hundelivered, hheld, halone.arrived, halone.newest⟩
    · intro m hm
      refine (hs.accounted m hm).step (List.Subset.refl _) (List.subset_append_left _ _) ?_
        fun h => .inr (.inr (.inr h))
      intro other hother
      rcases mem_or_missing hother with h | h
      · exact .inr (.inr (.inl ⟨other, h, rfl⟩))
      · exact .inr (.inl (List.mem_append_right _ (List.mem_map_of_mem h)))

theorem sound_step {action : ForwardAction} (hs : s.Sound) (hok : s.caughtUp action = true)
    (hstep : s.step dir action = some s') : s'.Sound := by
  cases action with
  | receive expired => exact sound_receive hs hok hstep
  | invoked ok => exact sound_invoked hs hstep
  | store payload enqueuedAt fault => exact sound_store hs hstep
  | drain answer corrupt => exact sound_drain hs hstep
  | cancel =>
    have hdrain : DrainState.Sound { s.drain with ctxDone := true } :=
      @DrainState.sound_step dir _ _ .cancel hs.drain rfl
    cases hstep
    exact { hs with drain := hdrain, alone := fun n hn => { hs.alone n hn with } }

theorem Sound.inArrivalOrder (hs : s.Sound) : s.InArrivalOrder where
  increasing := hs.ordered.done
  behind := fun n hn _ hid => hs.ordered.behind n hn _ (List.mem_map_of_mem hid)
  accounted := hs.accounted

end Forwarder

def drainedBeforeReceive : List ForwardAction :=
  [.receive false, .invoked false, .store (some [1]) 0 .none, .drain true false,
    .drain true false, .drain true false, .receive false, .invoked true]

def receivedUnderBacklog : List ForwardAction :=
  [.receive false, .invoked false, .store (some [1]) 0 .none, .receive false, .invoked true]

end DataPipe.Flow
