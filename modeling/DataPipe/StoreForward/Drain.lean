import DataPipe.Foundation.Backlog
import DataPipe.Foundation.Threads
import DataPipe.StoreForward.Durability

/-!
# Draining the queue

The model of `engine/storeforward/drain.go`.  `Drain` looks at the head of the
queue, delivers it and removes it; `Peek`, the delivery and `Remove` are steps
of their own, between which other goroutines enqueue and files may change.
-/

set_option linter.dupNamespace false

namespace DataPipe.StoreForward

open DataPipe.Foundation

/-- What `Drain` does next. -/
inductive DrainPc where
  | check
  | peek
  | deliver (entry : Entry)
  | remove (entry : Entry)
  | sleep
  | stopped
  deriving DecidableEq

/-- `delivered` holds the ids of the entries for which `deliver` returned nil. -/
structure DrainState where
  queue : Queue
  disk : Disk
  ctxDone : Bool
  pc : DrainPc
  delivered : List Name

/--
`drain answer` is the next step of `Drain`; the answer says that `deliver`
returns nil, or that the timer of `sleep` wins against the context.  `tamper` is
a change of the files by somebody else.
-/
inductive DrainAction where
  | drain (answer : Bool)
  | cancel
  | enqueue (payload : List UInt8) (enqueuedAt : Int) (fault : Fault)
  | tamper (disk : Disk)

namespace DrainState

def start (queue : Queue) (disk : Disk) : DrainState := ⟨queue, disk, false, .check, []⟩

def drain (dir : Dir) (s : DrainState) (answer : Bool) : Option DrainState :=
  match s.pc with
  | .check => some { s with pc := if s.ctxDone then .stopped else .peek }
  | .peek =>
    let result := s.queue.peek dir s.disk
    some { s with
      queue := result.1.1
      disk := result.1.2
      pc := match result.2 with
        | none => .sleep
        | some entry => .deliver entry }
  | .deliver entry =>
    if answer then
      some { s with pc := .remove entry, delivered := s.delivered ++ [entry.id] }
    else some { s with pc := .sleep }
  | .remove entry =>
    let result := s.queue.removeLocked dir s.disk entry.id
    some { s with queue := result.1, disk := result.2, pc := .check }
  | .sleep =>
    if answer then some { s with pc := .check }
    else if s.ctxDone then some { s with pc := .stopped }
    else none
  | .stopped => none

def step (dir : Dir) (s : DrainState) : DrainAction → Option DrainState
  | .drain answer => s.drain dir answer
  | .cancel => some { s with ctxDone := true }
  | .enqueue payload enqueuedAt fault =>
    match s.queue.enqueue dir s.disk payload enqueuedAt fault with
    | (none, _) => none
    | (some (queue, _), disk) => some { s with queue, disk }
  | .tamper disk => some { s with disk }

end DrainState

/-! ## Sequence numbers -/

def seqOf (id : Name) : Int := (signedDecimalValue id).getD 0

@[simp] theorem seqOf_seqName (seq : Nat) : seqOf (seqName seq) = seq := by
  simp [seqOf, signedDecimalValue_seqName]

variable {id : Name}

theorem slash_notMem_of_signedDecimalValue {n : Int} (h : signedDecimalValue id = some n) :
    '/' ∉ id := by
  have hdigits : ∀ {text : List Char} {m : Nat}, decimalValue text = some m → '/' ∉ text := by
    intro text m hvalue hmem
    unfold decimalValue at hvalue
    split at hvalue
    case isTrue hall => exact absurd (List.all_eq_true.mp hall.2 '/' hmem) (by decide)
    case isFalse => contradiction
  unfold signedDecimalValue at h
  split at h <;> obtain ⟨m, hvalue, -⟩ := Option.map_eq_some_iff.mp h
  · obtain ⟨m, hvalue, -⟩ := Option.bind_eq_some_iff.mp hvalue
    simpa using hdigits hvalue
  all_goals simpa using hdigits hvalue

structure Numbered (q : Queue) : Prop where
  valued : ∀ id ∈ q.order, ∃ n, signedDecimalValue id = some n
  increasing : (q.order.map seqOf).Pairwise (· < ·)
  below : ∀ id ∈ q.order, seqOf id < q.nextSeq

variable {disk : Disk}

theorem seq_of_mem_indexed {e : IdSeq} (he : e ∈ indexed disk) :
    signedDecimalValue e.id = some e.seq := by
  obtain ⟨name, -, hentry⟩ := List.mem_filterMap.mp he
  unfold indexEntry at hentry
  split at hentry
  case isTrue =>
    dsimp only at hentry
    split at hentry
    case h_1 hseq _ =>
      cases hentry
      exact hseq
    case h_2 => contradiction
  case isFalse => contradiction

theorem numbered_openQueue (hdistinct : DistinctSeqs disk) (maxSizeBytes maxAge : Int) :
    Numbered (openQueue disk maxSizeBytes maxAge) := by
  have hmem : ∀ id ∈ (openQueue disk maxSizeBytes maxAge).order, ∃ e ∈ indexed disk, e.id = id := by
    intro id hid
    obtain ⟨e, he, rfl⟩ := List.mem_map.mp hid
    exact ⟨e, (List.mem_insertionSort _).mp he, rfl⟩
  have hseq : ∀ e ∈ indexed disk, seqOf e.id = e.seq := by
    intro e he
    rw [seqOf, seq_of_mem_indexed he]
    rfl
  refine ⟨?_, ?_, ?_⟩
  · intro id hid
    obtain ⟨e, he, rfl⟩ := hmem id hid
    exact ⟨e.seq, seq_of_mem_indexed he⟩
  · change (List.map seqOf (List.map IdSeq.id _)).Pairwise _
    rw [List.map_map]
    refine List.pairwise_map.mpr ((sorted_indexed hdistinct).imp_of_mem ?_)
    intro a b ha hb hlt
    rw [List.mem_insertionSort] at ha hb
    rwa [Function.comp_apply, Function.comp_apply, hseq a ha, hseq b hb]
  · intro id hid
    obtain ⟨e, he, rfl⟩ := hmem id hid
    rw [hseq e he]
    exact (le_nextSeq_foldl (indexed disk) 0).2 e he

variable {q : Queue}

theorem Numbered.nodup (h : Numbered q) : q.order.Nodup := by
  refine List.Nodup.of_map seqOf (h.increasing.imp ?_)
  omega

theorem Numbered.slash_notMem (h : Numbered q) (hid : id ∈ q.order) : '/' ∉ id := by
  obtain ⟨n, hn⟩ := h.valued id hid
  exact slash_notMem_of_signedDecimalValue hn

/-! ## What the bounds drop -/

def Queue.weight (q : Queue) (ids : List Name) : Int :=
  (ids.map fun id => (q.sizes.lookup id).getD 0).sum

structure Drops (q q' : Queue) (dropped : List Name) : Prop where
  order : q.order = dropped ++ q'.order
  total : q'.total = q.total - q.weight dropped
  sizes : ∀ id ∈ q'.order, q'.sizes.lookup id = q.sizes.lookup id
  maxAge : q'.maxAge = q.maxAge
  maxSizeBytes : q'.maxSizeBytes = q.maxSizeBytes
  nextSeq : q'.nextSeq = q.nextSeq

namespace Drops

variable {q q' q'' : Queue} {dropped more : List Name}

theorem refl (q : Queue) : Drops q q [] where
  order := rfl
  total := by simp [Queue.weight]
  sizes := fun _ _ => rfl
  maxAge := rfl
  maxSizeBytes := rfl
  nextSeq := rfl

theorem weight_eq (h : Drops q q' dropped) {ids : List Name} (hids : ids ⊆ q'.order) :
    q'.weight ids = q.weight ids := by
  unfold Queue.weight
  congr 1
  refine List.map_congr_left fun id hid => ?_
  rw [h.sizes id (hids hid)]

theorem trans (h : Drops q q' dropped) (h' : Drops q' q'' more) :
    Drops q q'' (dropped ++ more) where
  order := by rw [h.order, h'.order, List.append_assoc]
  total := by
    have hmore : more ⊆ q'.order := by
      rw [h'.order]
      exact List.subset_append_left _ _
    rw [h'.total, h.total, h.weight_eq hmore]
    simp only [Queue.weight, List.map_append, List.sum_append]
    omega
  sizes := by
    intro id hid
    have hmem : id ∈ q'.order := by
      rw [h'.order]
      exact List.mem_append_right _ hid
    rw [h'.sizes id hid, h.sizes id hmem]
  maxAge := h'.maxAge.trans h.maxAge
  maxSizeBytes := h'.maxSizeBytes.trans h.maxSizeBytes
  nextSeq := h'.nextSeq.trans h.nextSeq

theorem head (dir : Dir) (disk : Disk) {id : Name} {rest : List Name}
    (horder : q.order = id :: rest) (hnodup : q.order.Nodup) :
    Drops q (q.removeLocked dir disk id).1 [id] := by
  have hrest := order_removeLocked_head dir disk horder
  refine ⟨by rw [hrest, horder]; rfl, ?_, ?_, rfl, rfl, rfl⟩
  · change q.total - (q.sizes.lookup id).getD 0 = _
    simp [Queue.weight]
  · intro other hother
    have hne : other ≠ id := by
      rintro rfl
      rw [horder, List.nodup_cons] at hnodup
      exact hnodup.1 (hrest ▸ hother)
    exact AList.lookup_erase_ne hne

theorem nodup (h : Drops q q' dropped) (hnodup : q.order.Nodup) : q'.order.Nodup := by
  rw [h.order] at hnodup
  exact hnodup.of_append_right

end Drops

variable {q q' : Queue} {disk : Disk} {dir : Dir} {payload : List UInt8} {enqueuedAt : Int}
  {fault : Fault} {s : DrainState}

theorem readLocked_eq (disk : Disk) (hslash : '/' ∉ id) :
    readLocked dir disk id = (disk.lookup (id ++ jsonSuffix)).bind EntryFile.unmarshal := by
  rw [readLocked, join_append_json dir hslash, Option.bind_some]

/-- An entry that `Enqueue` at time `now` finds too old. -/
def Queue.Stale (dir : Dir) (q : Queue) (disk : Disk) (now : Int) (id : Name) : Prop :=
  0 < q.maxAge ∧ ∃ ef, readLocked dir disk id = some ef ∧
    q.maxAge < now - ef.enqueuedAtUnixNano.toInt

/-- An entry that `Enqueue` cannot read while it looks for old ones. -/
def Queue.Corrupt (dir : Dir) (q : Queue) (disk : Disk) (id : Name) : Prop :=
  0 < q.maxAge ∧ readLocked dir disk id = none

def Queue.Oversize (q : Queue) (id : Name) : Prop :=
  0 < q.maxSizeBytes ∧ ∃ older newer, q.order = older ++ id :: newer ∧
    q.maxSizeBytes < q.total - q.weight older

theorem Evicts.drops {now : Int} {s s' : Queue × Disk} {dropped : List Name}
    (h : Evicts dir now s dropped s') (hnodup : s.1.order.Nodup)
    (hslash : ∀ id ∈ s.1.order, '/' ∉ id) :
    Drops s.1 s'.1 dropped ∧
      (∀ id ∈ s'.1.order, s'.2.lookup (id ++ jsonSuffix) = s.2.lookup (id ++ jsonSuffix)) ∧
      ∀ id ∈ dropped, s.1.Stale dir s.2 now id ∨ s.1.Corrupt dir s.2 id ∨ s.1.Oversize id := by
  induction h with
  | nil => exact ⟨.refl _, fun _ _ => rfl, by simp⟩
  | @snoc dropped s' id rest h horder hexceeds ih =>
    obtain ⟨hdrops, hfiles, hwhy⟩ := ih
    have hhead := Drops.head dir s'.2 horder (hdrops.nodup hnodup)
    have hsplit : s.1.order = dropped ++ id :: rest := by rw [hdrops.order, horder]
    have hid : '/' ∉ id := hslash id (by simp [hsplit])
    refine ⟨hdrops.trans hhead, ?_, List.forall_mem_append.mpr ⟨hwhy, ?_⟩⟩
    · intro other hother
      rw [order_removeLocked_head dir s'.2 horder] at hother
      have hne : other ≠ id := by
        rintro rfl
        rw [hsplit] at hnodup
        exact (List.nodup_cons.mp hnodup.of_append_right).1 hother
      rw [← hfiles other (by simp [horder, hother])]
      simp only [Queue.removeLocked, join_append_json dir hid]
      exact AList.lookup_erase_ne fun h => hne (List.append_cancel_right h)
    · rw [List.forall_mem_singleton]
      rcases hexceeds with ⟨hage, hold⟩ | ⟨hsize, hover⟩
      · rw [readLocked_eq _ hid, hfiles id (by simp [horder]), ← readLocked_eq _ hid] at hold
        rw [hdrops.maxAge] at hage hold
        cases hread : readLocked dir s.2 id with
        | none => exact .inr (.inl ⟨hage, hread⟩)
        | some ef => exact .inl ⟨hage, ef, hread, hold ef hread⟩
      · rw [hdrops.maxSizeBytes] at hsize hover
        exact .inr (.inr ⟨hsize, dropped, rest, hsplit, hdrops.total ▸ hover⟩)

def Queue.entered (dir : Dir) (q : Queue) (disk : Disk) (payload : List UInt8)
    (enqueuedAt : Int) : Queue × Disk :=
  let id := seqName q.nextSeq
  let data := (newEntryFile payload enqueuedAt).marshal
  (Queue.appended { q with nextSeq := q.nextSeq + 1 } id data.utf8ByteSize,
    match dir.join (id ++ jsonSuffix) with
    | none => disk
    | some path =>
      rename (writeFile disk (path ++ tmpSuffix) (some data)) (path ++ tmpSuffix) path)

/-- Why an `Enqueue` drops an entry. -/
def Queue.DroppedFor (dir : Dir) (q : Queue) (disk : Disk) (payload : List UInt8)
    (enqueuedAt : Int) (id : Name) : Prop :=
  (q.entered dir disk payload enqueuedAt).1.Stale dir
      (q.entered dir disk payload enqueuedAt).2 enqueuedAt id ∨
    (q.entered dir disk payload enqueuedAt).1.Corrupt dir
      (q.entered dir disk payload enqueuedAt).2 id ∨
    (q.entered dir disk payload enqueuedAt).1.Oversize id

structure Enqueued (dir : Dir) (q : Queue) (disk : Disk) (payload : List UInt8)
    (enqueuedAt : Int) (fault : Fault) (q' : Queue) : Prop where
  nextSeq : q'.nextSeq = q.nextSeq + 1
  order : q'.order = q.order ∧ fault ≠ .none ∨
    fault = .none ∧ ∃ dropped, q.order ++ [seqName q.nextSeq] = dropped ++ q'.order ∧
      ∀ id ∈ dropped, q.DroppedFor dir disk payload enqueuedAt id

theorem Numbered.append (h : Numbered q) :
    ((q.order ++ [seqName q.nextSeq]).map seqOf).Pairwise (· < ·) := by
  rw [List.map_append, List.pairwise_append]
  refine ⟨h.increasing, by simp, ?_⟩
  intro a ha b hb
  obtain ⟨id, hid, rfl⟩ := List.mem_map.mp ha
  simp only [List.map_cons, List.map_nil, seqOf_seqName, List.mem_singleton] at hb
  rw [hb]
  exact h.below id hid

theorem enqueued_of_enqueue {disk' : Disk} {result : Except EnqueueError Nat}
    (hnumbered : Numbered q)
    (h : q.enqueue dir disk payload enqueuedAt fault = (some (q', result), disk')) :
    Enqueued dir q disk payload enqueuedAt fault q' := by
  have hnodup : (q.order ++ [seqName q.nextSeq]).Nodup := by
    refine List.Nodup.of_map seqOf (hnumbered.append.imp ?_)
    omega
  have hslash : ∀ id ∈ q.order ++ [seqName q.nextSeq], '/' ∉ id := by
    intro id hid
    rcases List.mem_append.mp hid with hold | hnew
    · exact hnumbered.slash_notMem hold
    · rw [List.mem_singleton.mp hnew]
      exact slash_not_mem_seqName _
  have hjoin : dir.join (seqName q.nextSeq ++ jsonSuffix) =
      some (seqName q.nextSeq ++ jsonSuffix) := join_append_json dir (slash_not_mem_seqName _)
  cases fault with
  | none =>
    obtain ⟨expired, mid, excess, hexpired, -, hexcess, -⟩ := evicts_register dir enqueuedAt
      { q with nextSeq := q.nextSeq + 1 } (q.entered dir disk payload enqueuedAt).2
      (seqName q.nextSeq) (newEntryFile payload enqueuedAt).marshal.utf8ByteSize
    obtain ⟨hdrops, -, hwhy⟩ := (hexpired.trans hexcess).drops hnodup hslash
    simp only [Queue.entered, hjoin] at hdrops hwhy
    simp only [Queue.enqueue, hjoin] at h
    obtain ⟨⟨rfl, -⟩, -⟩ := h
    have hnext := hdrops.nextSeq
    have horder := hdrops.order
    refine ⟨hnext, .inr ⟨rfl, _, horder, ?_⟩⟩
    intro id hid
    simpa only [Queue.DroppedFor, Queue.entered, hjoin] using hwhy id hid
  | writeFails | renameFails =>
    simp only [Queue.enqueue, hjoin] at h
    obtain ⟨⟨rfl, -⟩, -⟩ := h
    exact ⟨rfl, .inl ⟨rfl, nofun⟩⟩
  | crashInWrite | crashBeforeRename | crashAfterRename => simp [Queue.enqueue, hjoin] at h

theorem Enqueued.sublist (h : Enqueued dir q disk payload enqueuedAt fault q') :
    q'.order.Sublist (q.order ++ [seqName q.nextSeq]) := by
  rcases h.order with ⟨horder, -⟩ | ⟨-, dropped, horder, -⟩
  · rw [horder]
    exact List.sublist_append_left _ _
  · rw [horder]
    exact List.sublist_append_right _ _

/-! ## What one step does to the queue -/

theorem Numbered.sublist (h : Numbered q) (horder : q'.order.Sublist q.order)
    (hnext : q'.nextSeq = q.nextSeq) : Numbered q' where
  valued := fun id hid => h.valued id (horder.subset hid)
  increasing := h.increasing.sublist (horder.map seqOf)
  below := fun id hid => hnext ▸ h.below id (horder.subset hid)

theorem Numbered.enqueued (hnumbered : Numbered q)
    (h : Enqueued dir q disk payload enqueuedAt fault q') : Numbered q' where
  valued := by
    intro id hid
    rcases List.mem_append.mp (h.sublist.subset hid) with hold | hnew
    · exact hnumbered.valued id hold
    · rw [List.mem_singleton.mp hnew]
      exact ⟨_, signedDecimalValue_seqName _⟩
  increasing := hnumbered.append.sublist (h.sublist.map seqOf)
  below := by
    intro id hid
    rw [h.nextSeq]
    rcases List.mem_append.mp (h.sublist.subset hid) with hold | hnew
    · have := hnumbered.below id hold
      omega
    · rw [List.mem_singleton.mp hnew, seqOf_seqName]
      omega

theorem order_removeLocked (dir : Dir) (q : Queue) (disk : Disk) (id : Name) :
    (q.removeLocked dir disk id).1.order = q.order.erase id :=
  dropFromOrder_eq_erase q.order id

theorem peek_cases (dir : Dir) (q : Queue) (disk : Disk) :
    (q.order = [] ∧ q.peek dir disk = ((q, disk), none)) ∨
    (∃ id rest, q.order = id :: rest ∧ entryAt dir disk id = none ∧
      q.peek dir disk = (q.removeLocked dir disk id, none)) ∨
    (∃ entry rest, q.order = entry.id :: rest ∧ q.peek dir disk = ((q, disk), some entry)) := by
  unfold Queue.peek entryAt
  cases horder : q.order with
  | nil => exact .inl ⟨rfl, rfl⟩
  | cons id rest =>
    cases hread : readLocked dir disk id with
    | none => exact .inr (.inl ⟨id, rest, rfl, by simp [hread], by simp [hread]⟩)
    | some ef =>
      cases hpayload : Base64.decode ef.payload.toList with
      | none =>
        exact .inr (.inl ⟨id, rest, rfl, by simp [hread, hpayload], by simp [hread, hpayload]⟩)
      | some payload =>
        exact .inr (.inr ⟨⟨id, payload, ef.enqueuedAtUnixNano.toInt⟩, rest, rfl,
          by simp [hread, hpayload]⟩)

/-- `Drain` neither holds an entry nor is about to remove one. -/
def DrainPc.idle : DrainPc → Bool
  | .deliver _ | .remove _ => false
  | _ => true

namespace DrainState

def undelivered (s : DrainState) : List Name :=
  match s.pc with
  | .remove entry => s.queue.order.erase entry.id
  | _ => s.queue.order

def held (s : DrainState) : Option Name :=
  match s.pc with
  | .deliver entry => some entry.id
  | _ => none

variable {id : Name}

theorem mem_order_of_undelivered (h : id ∈ s.undelivered) : id ∈ s.queue.order := by
  unfold undelivered at h
  split at h
  · exact List.mem_of_mem_erase h
  · exact h

/-- A step of `Drain` gives up what it holds, takes the oldest entry or delivers it. -/
inductive Turn (s s' : DrainState) : Prop where
  | idle (hundelivered : s'.undelivered.Sublist s.undelivered) (hheld : s'.held = none)
      (hdelivered : s'.delivered = s.delivered)
  | take (id : Name) (rest : List Name) (hbefore : s.undelivered = id :: rest)
      (hundelivered : s'.undelivered = s.undelivered) (hheld : s'.held = some id)
      (hdelivered : s'.delivered = s.delivered)
  | deliver (id : Name) (hbefore : s.held = some id)
      (hundelivered : s'.undelivered = s.undelivered.erase id) (hheld : s'.held = none)
      (hdelivered : s'.delivered = s.delivered ++ [id])

variable {s' : DrainState} {answer : Bool}

/-- What a step of `Drain` does. -/
inductive Drains (dir : Dir) (s : DrainState) (answer : Bool) : DrainState → Prop where
  | idle {pc : DrainPc} (hbefore : ∀ entry, s.pc ≠ .remove entry) (hidle : pc.idle = true) :
      Drains dir s answer { s with pc }
  | unreadable {id : Name} {rest : List Name} (hpc : s.pc = .peek)
      (horder : s.queue.order = id :: rest) (hentry : entryAt dir s.disk id = none) :
      Drains dir s answer
        { s with
          queue := (s.queue.removeLocked dir s.disk id).1
          disk := (s.queue.removeLocked dir s.disk id).2
          pc := .sleep }
  | taken {entry : Entry} {rest : List Name} (hpc : s.pc = .peek)
      (horder : s.queue.order = entry.id :: rest) :
      Drains dir s answer { s with pc := .deliver entry }
  | delivered {entry : Entry} (hpc : s.pc = .deliver entry) :
      Drains dir s answer
        { s with pc := .remove entry, delivered := s.delivered ++ [entry.id] }
  | removed {entry : Entry} (hpc : s.pc = .remove entry) :
      Drains dir s answer
        { s with
          queue := (s.queue.removeLocked dir s.disk entry.id).1
          disk := (s.queue.removeLocked dir s.disk entry.id).2
          pc := .check }

theorem drains_of_drain (hstep : s.drain dir answer = some s') : Drains dir s answer s' := by
  revert hstep
  fun_cases s.drain dir answer <;> rintro ⟨⟩
  next hpc => exact .idle (by simp [hpc]) (by split <;> rfl)
  next hpc result =>
    rcases peek_cases dir s.queue s.disk with ⟨-, hpeek⟩ | ⟨id, rest, horder, hentry, hpeek⟩ |
      ⟨entry, rest, horder, hpeek⟩
    · simp only [result, hpeek]
      exact .idle (by simp [hpc]) rfl
    · simp only [result, hpeek]
      exact .unreadable hpc horder hentry
    · simp only [result, hpeek]
      exact .taken hpc horder
  next hpc _ => exact .delivered hpc
  next hpc _ => exact .idle (by simp [hpc]) rfl
  next hpc _ => exact .removed hpc
  next hpc _ => exact .idle (by simp [hpc]) rfl
  next hpc _ _ => exact .idle (by simp [hpc]) rfl

theorem turn_of_idle {pc : DrainPc} (hbefore : ∀ entry, s.pc ≠ .remove entry)
    (hidle : pc.idle = true) : s.Turn { s with pc } := by
  have hundelivered : s.undelivered = s.queue.order := by
    unfold undelivered
    split
    next entry hpc => exact absurd hpc (hbefore entry)
    · rfl
  refine .idle ?_ ?_ rfl
  · rw [hundelivered]
    cases pc <;> first | exact List.Sublist.refl _ | contradiction
  · cases pc <;> first | rfl | contradiction

theorem turn_of_drain (hstep : s.drain dir answer = some s') : s.Turn s' := by
  cases drains_of_drain hstep with
  | idle hbefore hidle => exact turn_of_idle hbefore hidle
  | unreadable hpc =>
    refine .idle ?_ rfl rfl
    simp only [undelivered, hpc, order_removeLocked]
    exact List.erase_sublist
  | @taken entry rest hpc horder =>
    refine .take entry.id rest ?_ ?_ rfl rfl
    · simpa only [undelivered, hpc] using horder
    · simp only [undelivered, hpc]
  | @delivered entry hpc =>
    exact .deliver entry.id (by simp only [held, hpc]) (by simp only [undelivered, hpc]) rfl rfl
  | removed hpc =>
    refine .idle ?_ rfl rfl
    simp only [undelivered, hpc, order_removeLocked]
    exact List.Sublist.refl _

theorem Turn.mem (hturn : s.Turn s') (hid : id ∈ s'.undelivered ∨ s'.held = some id) :
    id ∈ s.undelivered ∨ s.held = some id := by
  cases hturn with
  | idle hundelivered hheld _ =>
    simp only [hheld, reduceCtorEq, or_false] at hid
    exact .inl (hundelivered.subset hid)
  | take head rest hbefore hundelivered hheld _ =>
    rw [hundelivered, hheld, Option.some.injEq] at hid
    rcases hid with hold | rfl
    · exact .inl hold
    · exact .inl (by simp [hbefore])
  | deliver head _ hundelivered hheld _ =>
    simp only [hheld, reduceCtorEq, or_false, hundelivered] at hid
    exact .inl (List.mem_of_mem_erase hid)

theorem delivery_of_drain (hstep : s.drain dir answer = some s') (hheld : s.held = some id)
    (hanswer : answer = true) : s'.undelivered = s.undelivered.erase id ∧ s'.held = none := by
  unfold held at hheld
  split at hheld
  next entry hpc =>
    cases hheld
    simp only [drain, hpc, hanswer, if_true, Option.some.injEq] at hstep
    subst hstep
    simp only [undelivered, held, hpc, and_self]
  · contradiction

theorem order_of_drain (hstep : s.drain dir answer = some s') :
    s'.queue.order.Sublist s.queue.order ∧ s'.queue.nextSeq = s.queue.nextSeq := by
  cases drains_of_drain hstep with
  | idle | taken | delivered => exact ⟨List.Sublist.refl _, rfl⟩
  | unreadable | removed =>
    refine ⟨?_, rfl⟩
    rw [order_removeLocked]
    exact List.erase_sublist

theorem enqueued_of_step (hnumbered : Numbered s.queue)
    (hstep : s.step dir (.enqueue payload enqueuedAt fault) = some s') :
    ∃ q' disk', Enqueued dir s.queue s.disk payload enqueuedAt fault q' ∧
      s' = { s with queue := q', disk := disk' } := by
  simp only [step] at hstep
  split at hstep
  · contradiction
  next q' result disk' henqueue =>
    cases hstep
    exact ⟨q', disk', enqueued_of_enqueue hnumbered henqueue, rfl⟩

theorem undelivered_of_enqueued (h : Enqueued dir s.queue s.disk payload enqueuedAt fault q')
    (disk : Disk) : (undelivered { s with queue := q', disk := disk }).Sublist
      (s.undelivered ++ [seqName s.queue.nextSeq]) := by
  unfold undelivered
  dsimp only
  split
  case h_1 entry _ =>
    refine (h.sublist.erase entry.id).trans ?_
    rw [List.erase_append]
    split
    · exact List.Sublist.refl _
    next hnot =>
      rw [List.erase_of_not_mem hnot]
      exact (List.Sublist.refl _).append List.erase_sublist
  case h_2 => exact h.sublist

end DrainState

/-! ## The drain loop as a consumer of a backlog -/

namespace DrainState

section Keyed

variable {α : Type*} [LinearOrder α]

def backlog (key : Name → α) (s : DrainState) (done : List α) : Backlog α :=
  ⟨s.undelivered.map key, s.held.map key, done⟩

def HeldApart (key : Name → α) (s : DrainState) : Prop :=
  ∀ held, s.held = some held → ∀ id ∈ s.undelivered, key id = key held → id = held

variable {key : Name → α} {s' : DrainState} {done : List α}

theorem Turn.ordered (hturn : s.Turn s') (h : (s.backlog key done).Ordered) :
    (s'.backlog key done).Ordered := by
  cases hturn with
  | idle hundelivered hheld _ =>
    rw [backlog, hheld]
    exact h.giveBack.drop (hundelivered.map key)
  | take id rest hbefore hundelivered hheld _ =>
    have hhead : (s.backlog key done).waiting = key id :: rest.map key := by
      rw [backlog, hbefore]
      rfl
    rw [backlog, hundelivered, hheld]
    exact h.take hhead
  | deliver id _ hundelivered hheld _ =>
    rw [backlog, hundelivered, hheld]
    exact h.giveBack.drop (List.erase_sublist.map key)

theorem ordered_of_delivery {id : Name} (h : (s.backlog key done).Ordered)
    (hnodup : s.undelivered.Nodup) (hapart : s.HeldApart key) (hbefore : s.held = some id)
    (hundelivered : s'.undelivered = s.undelivered.erase id) (hheld : s'.held = none) :
    (s'.backlog key (done ++ [key id])).Ordered := by
  have hgone : key id ∉ s'.undelivered.map key := by
    rw [hundelivered]
    intro hmem
    obtain ⟨other, hother, hkey⟩ := List.mem_map.mp hmem
    have hsame := hapart id hbefore other (List.mem_of_mem_erase hother) hkey
    rw [hsame] at hother
    exact hnodup.not_mem_erase hother
  have hsub : s'.undelivered.Sublist s.undelivered := by
    rw [hundelivered]
    exact List.erase_sublist
  have hdone := h.complete (by rw [backlog, hbefore]; rfl) (hsub.map key) hgone
  rw [backlog, hheld]
  exact hdone

theorem Turn.heldApart (hturn : s.Turn s') (h : (s.backlog key done).Ordered) :
    s'.HeldApart key := by
  cases hturn with
  | idle _ hheld _ | deliver _ _ _ hheld _ =>
    intro held hsome
    rw [hheld] at hsome
    contradiction
  | take id rest hbefore hundelivered hheld _ =>
    intro held hsome other hother hkey
    rw [hheld, Option.some.injEq] at hsome
    subst hsome
    have hmem : id ∈ s.undelivered := by simp [hbefore]
    have hnodup : (s.undelivered.map key).Nodup := h.waiting.imp fun hlt => ne_of_lt hlt
    rw [hundelivered] at hother
    exact List.inj_on_of_nodup_map hnodup hother hmem hkey

end Keyed

/-- Everything delivered so far, and what is in delivery, has a number below the next. -/
structure Sound (s : DrainState) : Prop where
  numbered : Numbered s.queue
  ordered : (s.backlog seqOf (s.delivered.map seqOf)).Ordered
  apart : s.HeldApart seqOf
  spent : ∀ id, id ∈ s.delivered ∨ s.held = some id → seqOf id < s.queue.nextSeq
  last : ∀ entry, s.pc = .remove entry → s.delivered.getLast? = some entry.id

variable {s' : DrainState} {answer : Bool}

theorem Sound.nodup (hs : s.Sound) : s.undelivered.Nodup := by
  unfold undelivered
  split
  · exact hs.numbered.nodup.erase _
  · exact hs.numbered.nodup

theorem sound_start (hdistinct : DistinctSeqs disk) (maxSizeBytes maxAge : Int) (files : Disk) :
    (start (openQueue disk maxSizeBytes maxAge) files).Sound where
  numbered := numbered_openQueue hdistinct maxSizeBytes maxAge
  ordered :=
    Backlog.ordered_of_waiting (numbered_openQueue hdistinct maxSizeBytes maxAge).increasing
  apart := by simp [HeldApart, start, held]
  spent := by simp [start, held]
  last := by simp [start]

theorem last_of_drain (hstep : s.drain dir answer = some s') {entry : Entry}
    (hpc : s'.pc = .remove entry) : s'.delivered.getLast? = some entry.id := by
  cases drains_of_drain hstep with
  | idle _ hidle =>
    cases hpc
    contradiction
  | delivered =>
    cases hpc
    exact List.getLast?_concat
  | unreadable | taken | removed => cases hpc

theorem sound_drain (hs : s.Sound) (hstep : s.drain dir answer = some s') : s'.Sound := by
  have hturn := turn_of_drain hstep
  obtain ⟨hsub, hnext⟩ := order_of_drain hstep
  refine ⟨hs.numbered.sublist hsub hnext, ?_, hturn.heldApart hs.ordered, ?_,
    fun entry => last_of_drain hstep⟩
  · cases hcase : hturn with
    | idle _ _ hdelivered | take _ _ _ _ _ hdelivered =>
      rw [hdelivered]
      exact hturn.ordered hs.ordered
    | deliver id hbefore hundelivered hheld hdelivered =>
      rw [hdelivered, List.map_append]
      exact ordered_of_delivery hs.ordered hs.nodup hs.apart hbefore hundelivered hheld
  · intro id hid
    rw [hnext]
    cases hturn with
    | idle _ hheld hdelivered =>
      rw [hheld, hdelivered] at hid
      exact hs.spent id (.inl (hid.resolve_right (by simp)))
    | take head rest hbefore _ hheld hdelivered =>
      rw [hheld, hdelivered] at hid
      rcases hid with hold | hnew
      · exact hs.spent id (.inl hold)
      · cases hnew
        exact hs.numbered.below _ (mem_order_of_undelivered (by simp [hbefore]))
    | deliver head hbefore _ hheld hdelivered =>
      rw [hheld, hdelivered] at hid
      rcases List.mem_append.mp (hid.resolve_right (by simp)) with hold | hnew
      · exact hs.spent id (.inl hold)
      · rw [List.mem_singleton.mp hnew]
        exact hs.spent head (.inr hbefore)

theorem sound_enqueued (hs : s.Sound) (h : Enqueued dir s.queue s.disk payload enqueuedAt fault q')
    (disk : Disk) : Sound { s with queue := q', disk := disk } := by
  have hnew : seqOf (seqName s.queue.nextSeq) = s.queue.nextSeq := seqOf_seqName _
  have hsub := undelivered_of_enqueued h disk
  have hpushed : Backlog.Ordered { s.backlog seqOf (s.delivered.map seqOf) with
      waiting := s.undelivered.map seqOf ++ [(s.queue.nextSeq : Int)] } := by
    refine hs.ordered.push ?_ ?_ ?_
    · intro y hy
      obtain ⟨id, hid, rfl⟩ := List.mem_map.mp hy
      exact hs.numbered.below id (mem_order_of_undelivered hid)
    · intro y hy
      obtain ⟨id, hid, rfl⟩ := List.mem_map.mp hy
      exact hs.spent id (.inl hid)
    · intro y hy
      obtain ⟨id, hid, rfl⟩ := Option.map_eq_some_iff.mp hy
      exact (hs.spent id (.inr hid)).le
  refine ⟨hs.numbered.enqueued h, ?_, ?_, ?_, hs.last⟩
  · refine hpushed.drop ?_
    have hmapped := hsub.map seqOf
    rw [List.map_append, List.map_cons, hnew] at hmapped
    exact hmapped
  · intro held hheld id hid hseq
    rcases List.mem_append.mp (hsub.subset hid) with hold | hlast
    · exact hs.apart held hheld id hold hseq
    · rw [List.mem_singleton.mp hlast] at hseq
      have := hs.spent held (.inr hheld)
      omega
  · intro id hid
    have := hs.spent id hid
    rw [h.nextSeq]
    omega

theorem held_of_enqueue (hs : s.Sound)
    (hstep : s.step dir (.enqueue payload enqueuedAt fault) = some s') : s'.held = s.held ∧
      s'.undelivered.Sublist (s.undelivered ++ [seqName s.queue.nextSeq]) := by
  obtain ⟨q', disk', h, rfl⟩ := enqueued_of_step hs.numbered hstep
  exact ⟨rfl, undelivered_of_enqueued h disk'⟩

theorem sound_step {action : DrainAction} (hs : s.Sound)
    (hstep : s.step dir action = some s') : s'.Sound := by
  cases action with
  | drain answer => exact sound_drain hs hstep
  | enqueue payload enqueuedAt fault =>
    obtain ⟨q', disk', h, rfl⟩ := enqueued_of_step hs.numbered hstep
    exact sound_enqueued hs h disk'
  | cancel | tamper =>
    cases hstep
    exact ⟨hs.numbered, hs.ordered, hs.apart, hs.spent, hs.last⟩

end DrainState

/-! ## Why entries leave -/

inductive Departure where
  | delivered
  | expired
  | oversize
  | unreadableAtPeek
  | unreadableAtEnqueue
  deriving DecidableEq

namespace DrainState

def LeavesFor (dir : Dir) (s : DrainState) (action : DrainAction) (id : Name) :
    Departure → Prop
  | .delivered => ∃ answer entry, action = .drain answer ∧ s.pc = .remove entry ∧
      entry.id = id ∧ id ∈ s.delivered
  | .expired => ∃ payload enqueuedAt, action = .enqueue payload enqueuedAt .none ∧
      (s.queue.entered dir s.disk payload enqueuedAt).1.Stale dir
        (s.queue.entered dir s.disk payload enqueuedAt).2 enqueuedAt id
  | .oversize => ∃ payload enqueuedAt, action = .enqueue payload enqueuedAt .none ∧
      (s.queue.entered dir s.disk payload enqueuedAt).1.Oversize id
  | .unreadableAtPeek => ∃ answer, action = .drain answer ∧ s.pc = .peek ∧
      entryAt dir s.disk id = none
  | .unreadableAtEnqueue => ∃ payload enqueuedAt, action = .enqueue payload enqueuedAt .none ∧
      (s.queue.entered dir s.disk payload enqueuedAt).1.Corrupt dir
        (s.queue.entered dir s.disk payload enqueuedAt).2 id

def present (s : DrainState) : DrainAction → List Name
  | .enqueue _ _ .none => s.queue.order ++ [seqName s.queue.nextSeq]
  | _ => s.queue.order

/--
Deliveries are in order, entries leave for one of the reasons only, and what is
removed after a delivery is what was delivered.
-/
structure DeliversInOrder (dir : Dir) (reasons : List Departure) (s : DrainState) : Prop where
  increasing : (s.delivered.map seqOf).Pairwise (· < ·)
  departures : ∀ action s', s.step dir action = some s' → ∀ id ∈ s.present action,
    id ∉ s'.queue.order → ∃ reason ∈ reasons, s.LeavesFor dir action id reason
  removal : ∀ entry answer s', s.pc = .remove entry → s.step dir (.drain answer) = some s' →
    s.delivered.getLast? = some entry.id ∧ s'.queue.order = s.queue.order.erase entry.id

variable {s' : DrainState} {answer : Bool} {id : Name}

theorem leavesFor_drain (hs : s.Sound) (hstep : s.drain dir answer = some s')
    (hmem : id ∈ s.queue.order) (hgone : id ∉ s'.queue.order) :
    s.LeavesFor dir (.drain answer) id .delivered ∨
      s.LeavesFor dir (.drain answer) id .unreadableAtPeek := by
  have hremoved {other : Name}
      (hgone : id ∉ (s.queue.removeLocked dir s.disk other).1.order) : other = id := by
    by_contra hne
    rw [order_removeLocked] at hgone
    exact hgone ((List.mem_erase_of_ne (Ne.symm hne)).mpr hmem)
  cases drains_of_drain hstep with
  | idle | taken | delivered => contradiction
  | unreadable hpc _ hentry => exact .inr ⟨answer, rfl, hpc, hremoved hgone ▸ hentry⟩
  | @removed entry hpc =>
    have hlast := List.mem_of_getLast? (hs.last entry hpc)
    exact .inl ⟨answer, entry, rfl, hpc, hremoved hgone, hremoved hgone ▸ hlast⟩

theorem leavesFor_enqueue (h : Enqueued dir s.queue s.disk payload enqueuedAt fault q')
    (hmem : id ∈ s.present (.enqueue payload enqueuedAt fault)) (hgone : id ∉ q'.order) :
    ∃ reason, s.LeavesFor dir (.enqueue payload enqueuedAt fault) id reason := by
  rcases h.order with ⟨horder, hfault⟩ | ⟨rfl, dropped, horder, hwhy⟩
  · have hpresent : s.present (.enqueue payload enqueuedAt fault) = s.queue.order := by
      cases fault <;> first | rfl | contradiction
    rw [hpresent, ← horder] at hmem
    contradiction
  · simp only [present, horder, List.mem_append, hgone, or_false] at hmem
    rcases hwhy id hmem with h | h | h
    · exact ⟨.expired, payload, enqueuedAt, rfl, h⟩
    · exact ⟨.unreadableAtEnqueue, payload, enqueuedAt, rfl, h⟩
    · exact ⟨.oversize, payload, enqueuedAt, rfl, h⟩

theorem Sound.deliversInOrder (hs : s.Sound) :
    s.DeliversInOrder dir [.delivered, .expired, .oversize, .unreadableAtPeek,
      .unreadableAtEnqueue] where
  increasing := hs.ordered.done
  departures := by
    intro action s' hstep id hmem hgone
    suffices h : ∃ reason, s.LeavesFor dir action id reason by
      obtain ⟨reason, hreason⟩ := h
      exact ⟨reason, by cases reason <;> simp, hreason⟩
    cases action with
    | drain answer => exact (leavesFor_drain hs hstep hmem hgone).elim (⟨_, ·⟩) (⟨_, ·⟩)
    | cancel | tamper =>
      cases hstep
      exact absurd hmem hgone
    | enqueue payload enqueuedAt fault =>
      obtain ⟨q', disk', h, rfl⟩ := enqueued_of_step hs.numbered hstep
      exact leavesFor_enqueue h hmem hgone
  removal := by
    intro entry answer s' hpc hstep
    refine ⟨hs.last entry hpc, ?_⟩
    simp only [step, drain, hpc, Option.some.injEq] at hstep
    subst hstep
    exact order_removeLocked dir s.queue s.disk entry.id

end DrainState

def enqueueUnderDelivery : List DrainAction :=
  [DrainAction.enqueue [1] 0 .none, .drain true, .drain true, .enqueue [2] 0 .none] ++
    List.replicate 6 (DrainAction.drain true)

theorem DrainState.eq_unreadableAtEnqueue {reason : Departure}
    (hread : readLocked dir (s.queue.entered dir s.disk payload enqueuedAt).2 id = none)
    (hsize : s.queue.maxSizeBytes ≤ 0)
    (hleaves : s.LeavesFor dir (.enqueue payload enqueuedAt .none) id reason) :
    reason = .unreadableAtEnqueue := by
  cases reason with
  | delivered =>
    obtain ⟨_, _, haction, _⟩ := hleaves
    contradiction
  | expired =>
    obtain ⟨payload, enqueuedAt, haction, -, ef, hef, -⟩ := hleaves
    cases haction
    rw [hread] at hef
    contradiction
  | oversize =>
    obtain ⟨payload, enqueuedAt, haction, hpos, -⟩ := hleaves
    change 0 < s.queue.maxSizeBytes at hpos
    omega
  | unreadableAtPeek =>
    obtain ⟨_, haction, _⟩ := hleaves
    contradiction
  | unreadableAtEnqueue => rfl

def unreadableDisk : Disk := AList.insert (entryName 0) "?" ∅

def unreadableStart : DrainState :=
  .start (openQueue unreadableDisk 0 1) unreadableDisk

def twinDisk : Disk :=
  AList.insert ['1', '.', 'j', 's', 'o', 'n'] (newEntryFile [1] 0).marshal
    (AList.insert ['0', '1', '.', 'j', 's', 'o', 'n'] (newEntryFile [2] 0).marshal ∅)

end DataPipe.StoreForward
