import DataPipe.StoreForward.Drain
import Mathlib.Algebra.Order.BigOperators.Group.List
import Mathlib.Algebra.Order.Group.Int

/-!
# The bounds of the queue

What a successful `Enqueue` leaves in a queue whose index matches its files, oldest entry first.
-/

namespace DataPipe.StoreForward

open DataPipe.Foundation

def filesSize (disk : Disk) (ids : List Name) : Int :=
  (ids.map fun id => (fileSize disk id).getD 0).sum

namespace Queue

/-- The index matches the files, and the entries that can be read stand oldest first. -/
structure Indexed (dir : Dir) (q : Queue) (disk : Disk) : Prop where
  numbered : Numbered q
  sizes : ∀ id ∈ q.order, q.sizes.lookup id = fileSize disk id
  total : q.total = filesSize disk q.order
  oldestFirst : q.order.Pairwise fun a b => ∀ ea eb, readLocked dir disk a = some ea →
    readLocked dir disk b = some eb → ea.enqueuedAtUnixNano.toInt ≤ eb.enqueuedAtUnixNano.toInt

/-- The entry fits both bounds together with the newer ones. -/
def Fits (dir : Dir) (q : Queue) (disk : Disk) (now : Int) (id : Name) (newer : List Name) : Prop :=
  (0 < q.maxSizeBytes → filesSize disk (id :: newer) ≤ q.maxSizeBytes) ∧
    (0 < q.maxAge → ∃ ef, readLocked dir disk id = some ef ∧
      now - ef.enqueuedAtUnixNano.toInt ≤ q.maxAge)

end Queue

/-- What `Enqueue` says of its bounds and of the number it returns. -/
structure BoundsExact (dir : Dir) (q : Queue) (disk : Disk) (payload : List UInt8) (now : Int)
    (q' : Queue) (disk' : Disk) (dropped : Nat) : Prop where
  suffix : q'.order <:+ q.order ++ [seqName q.nextSeq]
  size : 0 < q.maxSizeBytes → filesSize disk' q'.order ≤ q.maxSizeBytes
  age : 0 < q.maxAge → ∀ id ∈ q'.order, ∀ ef, readLocked dir disk' id = some ef →
    now - ef.enqueuedAtUnixNano.toInt ≤ q.maxAge
  minimal : ∀ older id newer, q.order ++ [seqName q.nextSeq] = older ++ id :: newer →
    id ∉ q'.order → ¬q.Fits dir (q.entered dir disk payload now).2 now id newer
  count : dropped = q.order.countP (· ∉ q'.order)

variable {dir : Dir} {q : Queue} {disk : Disk} {now : Int64}

theorem Numbered.ne_next {id : Name} (h : Numbered q) (hid : id ∈ q.order) :
    id ≠ seqName q.nextSeq := by
  rintro rfl
  simpa using h.below _ hid

section Entered

variable (dir q disk) (payload : List UInt8)

theorem order_entered (now : Int) :
    (q.entered dir disk payload now).1.order = q.order ++ [seqName q.nextSeq] := rfl

theorem entered_snd (now : Int) :
    (q.entered dir disk payload now).2 =
      rename (disk.insert (tmpName q.nextSeq) (newEntryFile payload now).marshal)
        (tmpName q.nextSeq) (entryName q.nextSeq) := by
  simp only [Queue.entered, join_append_json dir (slash_not_mem_seqName _)]
  rfl

theorem readLocked_entered_new (now : Int64) :
    readLocked dir (q.entered dir disk payload now.toInt).2 (seqName q.nextSeq) =
      some ⟨now, .ofList (Base64.encode payload)⟩ := by
  rw [readLocked_eq _ (slash_not_mem_seqName _), entered_snd, ← entryName, lookup_rename_entry,
    Option.bind_some, EntryFile.unmarshal_marshal, newEntryFile, Int64.ofInt_toInt]

theorem fileSize_entered_new (now : Int) :
    fileSize (q.entered dir disk payload now).2 (seqName q.nextSeq) =
      some ((newEntryFile payload now).marshal.utf8ByteSize : Int) := by
  rw [fileSize, entered_snd, ← entryName, lookup_rename_entry]
  rfl

end Entered

theorem Queue.Indexed.entered (payload : List UInt8) (h : q.Indexed dir disk)
    (hnewest : ∀ id ∈ q.order, ∀ ef, readLocked dir disk id = some ef →
      ef.enqueuedAtUnixNano.toInt ≤ now.toInt) :
    (q.entered dir disk payload now.toInt).1.Indexed dir
      (q.entered dir disk payload now.toInt).2 := by
  have hold : ∀ id ∈ q.order,
      (q.entered dir disk payload now.toInt).2.lookup (id ++ jsonSuffix) =
        disk.lookup (id ++ jsonSuffix) := by
    intro id hid
    rw [entered_snd, lookup_rename_other _ _ (h.numbered.ne_next hid)]
  have hread : ∀ id ∈ q.order,
      readLocked dir (q.entered dir disk payload now.toInt).2 id = readLocked dir disk id := by
    intro id hid
    have hslash := h.numbered.slash_notMem hid
    rw [readLocked_eq _ hslash, readLocked_eq _ hslash, hold id hid]
  have henqueued : Enqueued dir q disk payload now.toInt .none
      (q.entered dir disk payload now.toInt).1 := ⟨rfl, .inr ⟨rfl, [], rfl, by simp⟩⟩
  constructor
  · exact h.numbered.enqueued henqueued
  · rw [order_entered]
    refine List.forall_mem_append.mpr ⟨fun id hid => ?_, List.forall_mem_singleton.mpr ?_⟩
    · rw [fileSize, hold id hid]
      exact (AList.lookup_insert_ne (h.numbered.ne_next hid)).trans (h.sizes id hid)
    · rw [fileSize_entered_new]
      exact AList.lookup_insert _
  · change q.total + ((newEntryFile payload now.toInt).marshal.utf8ByteSize : Int) = _
    rw [order_entered, filesSize, List.map_append, List.sum_append, h.total]
    refine congrArg₂ (· + ·) ?_ ?_
    · refine congrArg List.sum (List.map_congr_left fun id hid => ?_)
      rw [fileSize, fileSize, hold id hid]
    · rw [List.map_singleton, fileSize_entered_new, List.sum_singleton, Option.getD_some]
  · rw [order_entered]
    refine List.pairwise_append.mpr ⟨h.oldestFirst.imp_of_mem ?_, List.pairwise_singleton _ _, ?_⟩
    · intro a b ha hb hle
      rwa [hread a ha, hread b hb]
    · intro a ha b hb ea eb
      rw [List.mem_singleton.mp hb, hread a ha, readLocked_entered_new]
      rintro hea ⟨⟩
      exact hnewest a ha ea hea

section Evicted

variable {s mid s' : Queue × Disk} {now : Int} {dropped expired : List Name}

theorem filesSize_append (disk : Disk) (ids more : List Name) :
    filesSize disk (ids ++ more) = filesSize disk ids + filesSize disk more := by
  simp [filesSize]

theorem Queue.Indexed.weight_eq (h : s.1.Indexed dir s.2) {ids : List Name}
    (hids : ids ⊆ s.1.order) : s.1.weight ids = filesSize s.2 ids := by
  refine congrArg List.sum (List.map_congr_left fun id hid => ?_)
  rw [h.sizes id (hids hid)]

theorem Evicts.left (h : s.1.Indexed dir s.2) (hevicts : Evicts dir now s dropped s') :
    s.1.order = dropped ++ s'.1.order ∧ s'.1.total = filesSize s'.2 s'.1.order ∧
      (∀ id ∈ s'.1.order, readLocked dir s'.2 id = readLocked dir s.2 id) := by
  obtain ⟨hdrops, hfiles, -⟩ := hevicts.drops h.numbered.nodup fun _ => h.numbered.slash_notMem
  have hweight := h.weight_eq (by simp [hdrops.order] : dropped ⊆ s.1.order)
  have hleft : filesSize s'.2 s'.1.order = filesSize s.2 s'.1.order := by
    refine congrArg List.sum (List.map_congr_left fun id hid => ?_)
    rw [fileSize, fileSize, hfiles id hid]
  refine ⟨hdrops.order, ?_, fun id hid => ?_⟩
  · rw [hdrops.total, h.total, hdrops.order, filesSize_append]
    omega
  · have hslash : '/' ∉ id := h.numbered.slash_notMem (by simp [hdrops.order, hid])
    rw [readLocked_eq _ hslash, readLocked_eq _ hslash, hfiles id hid]

theorem evicts_size (h : s.1.Indexed dir s.2) (hevicts : Evicts dir now s dropped s')
    (hfits : ∀ id ∈ s'.1.order.head?, ¬s'.1.Over) (hpos : 0 < s'.1.maxSizeBytes) :
    filesSize s'.2 s'.1.order ≤ s'.1.maxSizeBytes := by
  rw [← (hevicts.left h).2.1]
  cases horder : s'.1.order with
  | nil => simpa [(hevicts.left h).2.1, horder, filesSize] using hpos.le
  | cons id rest => exact not_lt.mp fun hlt => hfits id (by simp [horder]) ⟨hpos, hlt⟩

variable {id : Name}

theorem evicts_age (h : s.1.Indexed dir s.2) (hexpired : Evicts dir now s expired mid)
    (hfresh : ∀ id ∈ mid.1.order.head?, ¬Queue.Old dir now mid id) (hpos : 0 < mid.1.maxAge)
    (hid : id ∈ mid.1.order) {ef : EntryFile} (hread : readLocked dir s.2 id = some ef) :
    now - ef.enqueuedAtUnixNano.toInt ≤ mid.1.maxAge := by
  obtain ⟨hsplit, -, hsame⟩ := hexpired.left h
  have hsorted := h.oldestFirst
  rw [hsplit] at hsorted
  cases horder : mid.1.order with
  | nil => simp [horder] at hid
  | cons first rest =>
    have hfirst := hfresh first (by simp [horder])
    simp only [Queue.Old, hpos, true_and, not_forall, not_lt] at hfirst
    obtain ⟨oldest, holdest, hage⟩ := hfirst
    rw [hsame first (by simp [horder])] at holdest
    rw [horder] at hid hsorted
    rcases List.mem_cons.mp hid with rfl | hrest
    · rw [hread] at holdest
      cases holdest
      exact hage
    · have hle := (List.pairwise_cons.mp (List.pairwise_append.mp hsorted).2.1).1 id hrest oldest ef
        holdest hread
      omega

theorem not_fits_of_evicts (h : s.1.Indexed dir s.2) (hevicts : Evicts dir now s dropped s')
    {older newer : List Name} (hsplit : s.1.order = older ++ id :: newer)
    (hgone : id ∉ s'.1.order) : ¬s.1.Fits dir s.2 now id newer := by
  rintro ⟨hsize, hage⟩
  obtain ⟨hdrops, -, hwhy⟩ := hevicts.drops h.numbered.nodup fun _ => h.numbered.slash_notMem
  have hmem : id ∈ dropped := by
    have hmem : id ∈ s.1.order := by simp [hsplit]
    rw [hdrops.order, List.mem_append] at hmem
    exact hmem.resolve_right hgone
  rcases hwhy id hmem with ⟨hpos, ef, hread, hold⟩ | ⟨hpos, hread⟩ |
    ⟨hpos, older', newer', hsplit', hover⟩
  · obtain ⟨ef', hread', hfresh⟩ := hage hpos
    rw [hread] at hread'
    cases hread'
    omega
  · obtain ⟨ef, hread', -⟩ := hage hpos
    rw [hread] at hread'
    contradiction
  · have hnodup := h.numbered.nodup
    rw [hsplit, List.nodup_middle, List.nodup_cons, List.mem_append, not_or] at hnodup
    obtain ⟨rfl, -, rfl⟩ := (List.append_cons_inj_of_notMem hnodup.1.1 hnodup.1.2).mp
      (hsplit.symm.trans hsplit')
    rw [h.weight_eq (by simp [hsplit]), h.total, hsplit, filesSize_append] at hover
    omega

end Evicted

theorem length_eq_countP_iff {order dropped left : List Name} {new : Name}
    (hsplit : order ++ [new] = dropped ++ left) (hnodup : (order ++ [new]).Nodup) :
    dropped.length = order.countP (· ∉ left) ↔ new ∈ left := by
  have hcount : (order ++ [new]).countP (· ∉ left) = dropped.length := by
    rw [hsplit] at hnodup ⊢
    have hapart := (List.nodup_append.mp hnodup).2.2
    have hleft : left.countP (· ∉ left) = 0 := List.countP_eq_zero.mpr (by simp)
    rw [List.countP_append, hleft, Nat.add_zero, List.countP_eq_length]
    exact fun id hid => decide_eq_true fun hmem => hapart id hid id hmem rfl
  rw [← hcount]
  by_cases hnew : new ∈ left <;> simp

end DataPipe.StoreForward
