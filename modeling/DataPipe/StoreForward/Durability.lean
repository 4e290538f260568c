import DataPipe.Foundation.Dict
import DataPipe.StoreForward.Queue

/-!
# Durability of the store-and-forward queue

The index of a running queue is determined by the directory: `Represents` ties
the order, the sizes and the total to the entry files.  Every operation keeps
it, and `Open` rebuilds an index that satisfies it, so a restart changes nothing
but the sequence counter.
-/

set_option linter.dupNamespace false

namespace DataPipe.StoreForward

open DataPipe.Foundation

/-! ## File names -/

def entryName (seq : Nat) : Name := seqName seq ++ jsonSuffix

def tmpName (seq : Nat) : Name := entryName seq ++ tmpSuffix

theorem seqName_injective : Function.Injective seqName :=
  paddedDecimal_injective 20

theorem not_json_suffix_tmp (name : Name) : ¬jsonSuffix <:+ name ++ tmpSuffix := by
  rintro ⟨front, heq⟩
  have hlast := congrArg List.getLast? heq
  simp [jsonSuffix, tmpSuffix] at hlast

theorem tmp_ne_append_json (name other : Name) : name ++ tmpSuffix ≠ other ++ jsonSuffix := by
  intro heq
  exact not_json_suffix_tmp name ⟨other, heq.symm⟩

variable {disk : Disk} {log : Log} {q : Queue} {id name : Name} {seqs : List Nat} {dir : Dir}
  {content : String} {seq : Nat}

theorem splitOn_slash (hslash : '/' ∉ name) : name.splitOn '/' = [name] := by
  apply List.splitOnP_eq_singleton
  intro c hc
  simp only [beq_eq_false_iff_ne]
  rintro rfl
  exact hslash hc

theorem clean_singleton (rooted : Bool) (stack : List Name) (hempty : ¬(name = [] ∨ name = ['.']))
    (hparent : name ≠ ['.', '.']) : clean rooted stack [name] = name :: stack := by
  rw [clean.eq_def]
  dsimp only
  rw [if_neg hempty, if_neg hparent, clean.eq_def]

theorem join_plain (dir : Dir) (hslash : '/' ∉ name)
    (hlength : 2 < name.length) : dir.join name = some name := by
  have hempty : ¬(name = [] ∨ name = ['.']) := by rintro (rfl | rfl) <;> simp at hlength
  have hparent : name ≠ ['.', '.'] := by
    rintro rfl
    simp at hlength
  rw [Dir.join, splitOn_slash hslash, clean_singleton _ _ hempty hparent]
  simp

theorem join_append_json (dir : Dir) (hslash : '/' ∉ id) :
    dir.join (id ++ jsonSuffix) = some (id ++ jsonSuffix) := by
  apply join_plain
  · simp [hslash, jsonSuffix]
  · simp [jsonSuffix]

theorem slash_not_mem_seqName (seq : Nat) : '/' ∉ seqName seq := by
  intro hmem
  have hdigit := isDigit_of_mem_paddedDecimal hmem
  contradiction

/-! ## Reading an entry back -/

theorem EntryFile.unmarshal_marshal (ef : EntryFile) :
    EntryFile.unmarshal ef.marshal = some ef := by
  have hint : int64Value (intLit ef.enqueuedAtUnixNano.toInt) = some ef.enqueuedAtUnixNano := by
    have hvalue : signedDecimalValue (intLit ef.enqueuedAtUnixNano.toInt).chars =
        some ef.enqueuedAtUnixNano.toInt :=
      signedDecimalValue_signedDecimal _
    rw [int64Value, hvalue]
    dsimp only
    rw [if_pos ⟨Int64.le_toInt _, Int64.toInt_lt _⟩, Int64.ofInt_toInt]
  have hread : Json.read ef.marshal.toList = some ef.toJson := by
    rw [marshal, String.toList_ofList, Json.read_render]
  have hfirst : keyIs "enqueuedAtUnixNano" "enqueuedAtUnixNano" = true := by decide
  have hother : keyIs "payload" "enqueuedAtUnixNano" = false := by decide
  have hsecond : keyIs "payload" "payload" = true := by decide
  rw [unmarshal, hread]
  simp [ofJson, toJson, assign, setEnqueuedAt, setPayload, hfirst, hother, hsecond, hint]

/-! ## The directory -/

def DiskOk (disk : Disk) (log : Log) : Prop :=
  ∀ name content, disk.lookup name = some content →
    (∃ seq payload enqueuedAt, name = entryName seq ∧
      log.lookup (seqName seq) = some (payload, enqueuedAt) ∧
      content = (newEntryFile payload enqueuedAt).marshal) ∨
    ∃ seq, name = tmpName seq

theorem diskOk_empty : DiskOk ∅ ∅ := by
  intro name content hlookup
  contradiction

theorem DiskOk.erase (hdisk : DiskOk disk log) (name : Name) : DiskOk (disk.erase name) log := by
  intro other content hlookup
  exact hdisk other content (lookup_erase_eq_some hlookup).2

theorem DiskOk.insert_tmp (hdisk : DiskOk disk log) (seq : Nat) (content : String) :
    DiskOk (disk.insert (tmpName seq) content) log := by
  intro other found hlookup
  by_cases heq : other = tmpName seq
  · exact .inr ⟨seq, heq⟩
  · rw [AList.lookup_insert_ne heq] at hlookup
    exact hdisk other found hlookup

theorem DiskOk.insert_entry (hdisk : DiskOk disk log) (seq : Nat) (payload : List UInt8)
    (enqueuedAt : Int) :
    DiskOk (disk.insert (entryName seq)
        (newEntryFile payload enqueuedAt).marshal)
      (log.insert (seqName seq) (payload, enqueuedAt)) := by
  intro other found hlookup
  by_cases heq : other = entryName seq
  · subst heq
    rw [AList.lookup_insert, Option.some.injEq] at hlookup
    exact .inl ⟨seq, payload, enqueuedAt, rfl, AList.lookup_insert _, hlookup.symm⟩
  · rw [AList.lookup_insert_ne heq] at hlookup
    rcases hdisk other found hlookup with
      ⟨seq', payload', enqueuedAt', rfl, hlog, hfound⟩ | htmp
    · have hname : seqName seq' ≠ seqName seq := fun hname =>
        heq (congrArg (· ++ jsonSuffix) hname)
      exact .inl ⟨seq', payload', enqueuedAt', rfl,
        (AList.lookup_insert_ne hname).trans hlog, hfound⟩
    · exact .inr htmp

theorem exists_lookup_of_mem (hmem : name ∈ disk) : ∃ content, disk.lookup name = some content :=
  Option.isSome_iff_exists.mp (AList.lookup_isSome.mpr hmem)

theorem mem_of_lookup (hlookup : disk.lookup name = some content) : name ∈ disk :=
  AList.lookup_isSome.mp (by rw [hlookup]; rfl)

theorem DiskOk.seq_of_mem (hdisk : DiskOk disk log)
    (hmem : id ++ jsonSuffix ∈ disk) : ∃ seq, id = seqName seq := by
  obtain ⟨content, hlookup⟩ := exists_lookup_of_mem hmem
  rcases hdisk _ _ hlookup with ⟨seq, -, -, hname, -, -⟩ | ⟨seq, hname⟩
  · exact ⟨seq, List.append_cancel_right hname⟩
  · exact absurd hname.symm (tmp_ne_append_json _ _)

/-- The path of `Remove(id)` is not that of another entry. -/
def RemovesOwn (dir : Dir) (disk : Disk) (id : Name) : Prop :=
  ∀ name, dir.join (id ++ jsonSuffix) = some name → name ∈ disk → name = id ++ jsonSuffix

theorem removesOwn_of_no_slash (dir : Dir) (disk : Disk)
    (hslash : '/' ∉ id) : RemovesOwn dir disk id := by
  intro name hjoin _
  rw [join_append_json dir hslash] at hjoin
  exact (Option.some.inj hjoin).symm

/-- The directory after `os.Remove` of the file of `id`. -/
def removeFile (dir : Dir) (disk : Disk) (id : Name) : Disk :=
  match dir.join (id ++ jsonSuffix) with
  | none => disk
  | some name => disk.erase name

theorem diskOk_removeFile (hdisk : DiskOk disk log) (dir : Dir)
    (id : Name) : DiskOk (removeFile dir disk id) log := by
  unfold removeFile
  split
  · exact hdisk
  · exact hdisk.erase _

theorem lookup_removeFile (hdisk : DiskOk disk log) (hown : RemovesOwn dir disk id) (name : Name) :
    (removeFile dir disk id).lookup name =
      if name = id ++ jsonSuffix then none else disk.lookup name := by
  by_cases hlive : id ++ jsonSuffix ∈ disk
  · obtain ⟨seq, rfl⟩ := hdisk.seq_of_mem hlive
    rw [removeFile, join_append_json dir (slash_not_mem_seqName seq)]
    split_ifs with hname
    · rw [hname, AList.lookup_erase]
    · rw [AList.lookup_erase_ne hname]
  · have hkeep : (removeFile dir disk id).lookup name = disk.lookup name := by
      unfold removeFile
      split
      · rfl
      next found hjoin =>
        by_cases hfound : name = found
        · have habsent : found ∉ disk := by
            intro hmem
            exact hlive (hown found hjoin hmem ▸ hmem)
          rw [hfound, AList.lookup_erase, AList.lookup_eq_none.mpr habsent]
        · rw [AList.lookup_erase_ne hfound]
    rw [hkeep]
    split_ifs with hname
    · rw [hname, AList.lookup_eq_none.mpr hlive]
    · rfl

/-! ## The index -/

def fileSize (disk : Disk) (id : Name) : Option Int :=
  (disk.lookup (id ++ jsonSuffix)).map fun content => (content.utf8ByteSize : Int)

structure Represents (q : Queue) (disk : Disk) (seqs : List Nat) : Prop where
  order_eq : q.order = seqs.map seqName
  sorted : seqs.Pairwise (· < ·)
  files : ∀ seq, entryName seq ∈ disk ↔ seq ∈ seqs
  sizes_eq : ∀ id, q.sizes.lookup id = fileSize disk id
  total_eq : q.total = valueSum q.sizes
  next_gt : ∀ seq ∈ seqs, seq < q.nextSeq

theorem Represents.nodup (hrep : Represents q disk seqs) : q.order.Nodup := by
  rw [hrep.order_eq]
  apply List.Nodup.map seqName_injective
  exact hrep.sorted.imp Nat.ne_of_lt

theorem dropFromOrder_eq_erase (order : List Name) (id : Name) :
    Queue.dropFromOrder order id = order.erase id := by
  cases order with
  | nil => rfl
  | cons first rest =>
    simp only [Queue.dropFromOrder]
    split_ifs with hfirst
    · rw [hfirst, List.erase_cons_head]
    · rfl

theorem Represents.remove (hdisk : DiskOk disk log) (hrep : Represents q disk seqs)
    (hown : RemovesOwn dir disk id) :
    Represents (q.removeLocked dir disk id).1 (removeFile dir disk id)
      (seqs.filter fun seq => seqName seq != id) := by
  have hlookup := lookup_removeFile hdisk hown
  refine ⟨?_, hrep.sorted.filter _, ?_, ?_, ?_, ?_⟩
  · change Queue.dropFromOrder q.order id = _
    rw [dropFromOrder_eq_erase, hrep.nodup.erase_eq_filter, hrep.order_eq, List.filter_map]
    rfl
  · intro seq
    rw [List.mem_filter, ← hrep.files seq, ← AList.lookup_isSome, hlookup, ← AList.lookup_isSome]
    by_cases heq : seqName seq = id
    · simp [entryName, heq]
    · have hname : entryName seq ≠ id ++ jsonSuffix := fun hname =>
        heq (List.append_cancel_right hname)
      rw [if_neg hname]
      simp [heq]
  · intro other
    change (q.sizes.erase id).lookup other = _
    rw [fileSize, hlookup]
    by_cases heq : other = id
    · rw [heq, AList.lookup_erase, if_pos rfl]
      rfl
    · rw [AList.lookup_erase_ne heq, hrep.sizes_eq, if_neg]
      · rfl
      · intro hname
        exact heq (List.append_cancel_right hname)
  · change q.total - (q.sizes.lookup id).getD 0 = valueSum (q.sizes.erase id)
    rw [valueSum_erase, hrep.total_eq]
  · intro seq hseq
    exact hrep.next_gt seq (List.mem_filter.mp hseq).1

variable {disk' : Disk}

theorem Represents.of_lookup_json (hrep : Represents q disk seqs)
    (hlookup : ∀ id, disk'.lookup (id ++ jsonSuffix) = disk.lookup (id ++ jsonSuffix))
    {nextSeq : Nat} (hnext : q.nextSeq ≤ nextSeq) :
    Represents { q with nextSeq := nextSeq } disk' seqs := by
  refine ⟨hrep.order_eq, hrep.sorted, ?_, ?_, hrep.total_eq, ?_⟩
  · intro seq
    rw [← hrep.files seq, ← AList.lookup_isSome, ← AList.lookup_isSome, entryName, hlookup]
  · intro id
    rw [fileSize, hlookup]
    exact hrep.sizes_eq id
  · intro seq hseq
    exact (hrep.next_gt seq hseq).trans_le hnext

theorem lookup_insert_tmp (disk : Disk) (seq : Nat) (content : String) (id : Name) :
    (disk.insert (tmpName seq) content).lookup (id ++ jsonSuffix) =
      disk.lookup (id ++ jsonSuffix) :=
  AList.lookup_insert_ne (tmp_ne_append_json _ id).symm

theorem Represents.register (hrep : Represents q disk seqs)
    (hnew : disk'.lookup (entryName q.nextSeq) = some content)
    (hold : ∀ id, id ≠ seqName q.nextSeq →
      disk'.lookup (id ++ jsonSuffix) = disk.lookup (id ++ jsonSuffix)) :
    Represents
      { q with
        nextSeq := q.nextSeq + 1
        order := q.order ++ [seqName q.nextSeq]
        sizes := q.sizes.insert (seqName q.nextSeq) content.utf8ByteSize
        total := q.total + content.utf8ByteSize }
      disk' (seqs ++ [q.nextSeq]) := by
  have hfresh : q.nextSeq ∉ seqs := fun hmem => absurd (hrep.next_gt _ hmem) (Nat.lt_irrefl _)
  have habsent : seqName q.nextSeq ∉ q.sizes := by
    rw [← AList.lookup_eq_none, hrep.sizes_eq, fileSize]
    rw [← hrep.files, ← AList.lookup_eq_none] at hfresh
    rw [← entryName, hfresh]
    rfl
  refine ⟨?_, ?_, ?_, ?_, ?_, ?_⟩
  · simp [hrep.order_eq]
  · refine List.pairwise_append.mpr
      ⟨hrep.sorted, List.pairwise_singleton _ _, ?_⟩
    intro seq hseq next hnext
    rw [List.mem_singleton] at hnext
    exact hnext ▸ hrep.next_gt seq hseq
  · intro seq
    rw [List.mem_append, ← hrep.files seq, ← AList.lookup_isSome, ← AList.lookup_isSome]
    by_cases heq : seq = q.nextSeq
    · rw [heq, hnew]
      simp
    · rw [entryName, hold _ fun hname => heq (seqName_injective hname)]
      simp [heq]
  · intro id
    by_cases heq : id = seqName q.nextSeq
    · rw [heq, AList.lookup_insert, fileSize, ← entryName, hnew]
      rfl
    · rw [AList.lookup_insert_ne heq, hrep.sizes_eq, fileSize, fileSize, hold id heq]
  · rw [valueSum_insert_of_notMem habsent, hrep.total_eq]
  · intro seq hseq
    rw [List.mem_append, List.mem_singleton] at hseq
    rcases hseq with hmem | rfl
    · exact (hrep.next_gt seq hmem).trans (Nat.lt_succ_self _)
    · exact Nat.lt_succ_self _

/-! ## The operations -/

def Sound (log : Log) (q : Queue) (disk : Disk) : Prop :=
  DiskOk disk log ∧ ∃ seqs, Represents q disk seqs

theorem Sound.remove (hsound : Sound log q disk) (hown : RemovesOwn dir disk id) :
    Sound log (q.removeLocked dir disk id).1 (q.removeLocked dir disk id).2 := by
  obtain ⟨hdisk, seqs, hrep⟩ := hsound
  exact ⟨diskOk_removeFile hdisk dir id, _, hrep.remove hdisk hown⟩

theorem Sound.remove_head (dir : Dir) {rest : List Name} (hsound : Sound log q disk)
    (horder : q.order = id :: rest) :
    Sound log (q.removeLocked dir disk id).1 (q.removeLocked dir disk id).2 := by
  obtain ⟨seqs, hrep⟩ := hsound.2
  have hmem : id ∈ seqs.map seqName := by
    rw [← hrep.order_eq, horder]
    exact List.mem_cons_self
  obtain ⟨seq, -, rfl⟩ := List.mem_map.mp hmem
  exact hsound.remove
    (removesOwn_of_no_slash dir disk (slash_not_mem_seqName seq))

namespace Queue

/-- The entry is too old at time `now`, or cannot be read. -/
def Old (dir : Dir) (now : Int) (s : Queue × Disk) (id : Name) : Prop :=
  0 < s.1.maxAge ∧ ∀ ef, readLocked dir s.2 id = some ef →
    s.1.maxAge < now - ef.enqueuedAtUnixNano.toInt

def Over (q : Queue) : Prop := 0 < q.maxSizeBytes ∧ q.maxSizeBytes < q.total

def appended (q : Queue) (id : Name) (size : Int) : Queue :=
  { q with
    order := q.order ++ [id]
    sizes := q.sizes.insert id size
    total := q.total + size }

end Queue

/-- The bounds remove entries from the head of the queue, one by one. -/
inductive Evicts (dir : Dir) (now : Int) (s : Queue × Disk) : List Name → Queue × Disk → Prop
  | nil : Evicts dir now s [] s
  | snoc {dropped : List Name} {s' : Queue × Disk} {id : Name} {rest : List Name}
      (h : Evicts dir now s dropped s') (horder : s'.1.order = id :: rest)
      (hexceeds : Queue.Old dir now s' id ∨ s'.1.Over) :
      Evicts dir now s (dropped ++ [id]) (s'.1.removeLocked dir s'.2 id)

section Evicts

variable {now : Int} {s s' s'' : Queue × Disk} {dropped more : List Name}

theorem Evicts.trans (h : Evicts dir now s dropped s') (h' : Evicts dir now s' more s'') :
    Evicts dir now s (dropped ++ more) s'' := by
  induction h' with
  | nil => simpa using h
  | snoc _ horder hexceeds ih =>
    rw [← List.append_assoc]
    exact ih.snoc horder hexceeds

theorem Evicts.sound (h : Evicts dir now s dropped s') (hsound : Sound log s.1 s.2) :
    Sound log s'.1 s'.2 := by
  induction h with
  | nil => exact hsound
  | snoc _ horder _ ih => exact ih.remove_head dir horder

theorem order_removeLocked_head (dir : Dir) (disk : Disk) {rest : List Name}
    (horder : q.order = id :: rest) : (q.removeLocked dir disk id).1.order = rest := by
  change Queue.dropFromOrder q.order id = rest
  rw [horder, Queue.dropFromOrder, if_pos rfl]

/-- A loop that removes the head as long as the condition holds of it. -/
theorem evicts_loop (inv : Queue → Prop) {cond : Queue × Disk → Name → Prop}
    {loop : Nat → Queue → Disk → Nat → Queue × Disk × Nat}
    (hinv : ∀ q disk id, inv q → inv (q.removeLocked dir disk id).1)
    (hcond : ∀ s id, cond s id → Queue.Old dir now s id ∨ s.1.Over)
    (hstop : ∀ fuel q disk n, inv q → (∀ id ∈ q.order.head?, ¬cond (q, disk) id) →
      loop fuel q disk n = (q, disk, n))
    (hturn : ∀ fuel q disk n id rest, q.order = id :: rest → cond (q, disk) id →
      loop (fuel + 1) q disk n =
        loop fuel (q.removeLocked dir disk id).1 (q.removeLocked dir disk id).2 (n + 1))
    {fuel : Nat} (hq : inv q) (hfuel : q.order.length ≤ fuel)
    (h : Evicts dir now s dropped (q, disk)) :
    let r := loop fuel q disk dropped.length
    ∃ dropped, Evicts dir now s dropped (r.1, r.2.1) ∧ r.2.2 = dropped.length ∧
      ∀ id ∈ r.1.order.head?, ¬cond (r.1, r.2.1) id := by
  induction fuel generalizing q disk dropped with
  | zero =>
    have horder : q.order = [] := List.length_eq_zero_iff.mp (Nat.le_zero.mp hfuel)
    rw [hstop _ _ _ _ hq (by simp [horder])]
    exact ⟨dropped, h, rfl, by simp [horder]⟩
  | succ fuel ih =>
    by_cases hhead : ∀ id ∈ q.order.head?, ¬cond (q, disk) id
    · rw [hstop _ _ _ _ hq hhead]
      exact ⟨dropped, h, rfl, hhead⟩
    · simp only [not_forall, not_not] at hhead
      obtain ⟨id, hid, hexceeds⟩ := hhead
      obtain ⟨rest, horder⟩ := List.head?_eq_some_iff.mp hid
      have hlength : (q.removeLocked dir disk id).1.order.length ≤ fuel := by
        rw [order_removeLocked_head dir disk horder]
        simpa [horder] using hfuel
      have hrest := ih (hinv q disk id hq) hlength (h.snoc horder (hcond _ _ hexceeds))
      rw [hturn _ _ _ _ _ _ horder hexceeds]
      rwa [List.length_append] at hrest

theorem evicts_dropExpiredLocked (dir : Dir) (now : Int) (q : Queue) (disk : Disk) :
    let r := q.dropExpiredLocked dir disk now
    ∃ dropped, Evicts dir now (q, disk) dropped (r.1, r.2.1) ∧ r.2.2 = dropped.length ∧
      ∀ id ∈ r.1.order.head?, ¬Queue.Old dir now (r.1, r.2.1) id := by
  unfold Queue.dropExpiredLocked
  split
  case isTrue hage => exact ⟨[], .nil, rfl, fun id _ h => absurd h.1 (not_lt.mpr hage)⟩
  case isFalse hage =>
    refine evicts_loop (fun q => 0 < q.maxAge) (fun _ _ _ h => h) (fun _ _ => .inl) ?_ ?_
      (not_le.mp hage) le_rfl .nil
    · intro fuel q disk n hage hhead
      fun_cases Queue.dropExpiredLoop dir now fuel q disk n <;> simp_all [Queue.Old]
    · intro fuel q disk n id rest horder hold
      simp only [Queue.dropExpiredLoop, horder]
      split
      · rfl
      · exact if_neg (not_le.mpr (hold.2 _ ‹_›))

theorem evicts_dropOverflowLocked (dir : Dir) (now : Int) (q : Queue) (disk : Disk) :
    let r := q.dropOverflowLocked dir disk
    ∃ dropped, Evicts dir now (q, disk) dropped (r.1, r.2.1) ∧ r.2.2 = dropped.length ∧
      ∀ id ∈ r.1.order.head?, ¬r.1.Over := by
  unfold Queue.dropOverflowLocked
  split
  case isTrue hsize => exact ⟨[], .nil, rfl, fun id _ h => absurd h.1 (not_lt.mpr hsize)⟩
  case isFalse hsize =>
    refine evicts_loop (fun q => 0 < q.maxSizeBytes) (fun _ _ _ h => h) (fun _ _ => .inr) ?_ ?_
      (not_le.mp hsize) le_rfl .nil
    · intro fuel q disk n hage hhead
      fun_cases Queue.dropOverflowLoop dir fuel q disk n <;> simp_all [Queue.Over]
    · intro fuel q disk n id rest horder hover
      simp only [Queue.dropOverflowLoop, horder]
      exact if_pos hover.2

theorem evicts_register (dir : Dir) (now : Int) (q : Queue) (disk : Disk) (id : Name) (size : Int) :
    let r := q.register dir disk id size now
    ∃ expired mid excess, Evicts dir now (q.appended id size, disk) expired mid ∧
      (∀ id ∈ mid.1.order.head?, ¬Queue.Old dir now mid id) ∧
      Evicts dir now mid excess (r.1, r.2.1) ∧ (∀ id ∈ r.1.order.head?, ¬r.1.Over) ∧
      r.2.2 = expired.length + excess.length := by
  obtain ⟨expired, hexpired, hcount, hfresh⟩ :=
    evicts_dropExpiredLocked dir now (q.appended id size) disk
  obtain ⟨excess, hexcess, hmore, hfits⟩ := evicts_dropOverflowLocked dir now
    ((q.appended id size).dropExpiredLocked dir disk now).1
    ((q.appended id size).dropExpiredLocked dir disk now).2.1
  exact ⟨expired, _, excess, hexpired, hfresh, hexcess, hfits, congrArg₂ _ hcount hmore⟩

end Evicts

theorem rename_insert_tmp (disk : Disk) (seq : Nat) (content : String) :
    rename (disk.insert (tmpName seq) content) (tmpName seq) (entryName seq) =
      ((disk.insert (tmpName seq) content).erase (tmpName seq)).insert
        (entryName seq) content := by
  rw [rename, AList.lookup_insert]

theorem diskOk_rename (hdisk : DiskOk disk log) (seq : Nat) (payload : List UInt8)
    (enqueuedAt : Int) :
    DiskOk (rename (disk.insert (tmpName seq)
        (newEntryFile payload enqueuedAt).marshal) (tmpName seq)
        (entryName seq))
      (log.insert (seqName seq) (payload, enqueuedAt)) := by
  rw [rename_insert_tmp]
  exact ((hdisk.insert_tmp seq _).erase _).insert_entry seq payload enqueuedAt

theorem lookup_rename_entry (disk : Disk) (seq : Nat) (content : String) :
    (rename (disk.insert (tmpName seq) content) (tmpName seq)
      (entryName seq)).lookup (entryName seq) = some content := by
  rw [rename_insert_tmp, AList.lookup_insert]

theorem lookup_rename_other (disk : Disk) (content : String) (hid : id ≠ seqName seq) :
    (rename (disk.insert (tmpName seq) content) (tmpName seq)
      (entryName seq)).lookup (id ++ jsonSuffix) =
      disk.lookup (id ++ jsonSuffix) := by
  rw [rename_insert_tmp, AList.lookup_insert_ne, AList.lookup_erase_ne, lookup_insert_tmp]
  · exact (tmp_ne_append_json _ id).symm
  · intro hname
    exact hid (List.append_cancel_right hname)

theorem sound_register (dir : Dir) (hsound : Sound log q disk) (payload : List UInt8)
    (enqueuedAt : Int) :
    let data := (newEntryFile payload enqueuedAt).marshal
    let result := ({ q with nextSeq := q.nextSeq + 1 } : Queue).register dir
      (rename (disk.insert (tmpName q.nextSeq) data) (tmpName q.nextSeq)
        (entryName q.nextSeq))
      (seqName q.nextSeq) data.utf8ByteSize enqueuedAt
    Sound (log.insert (seqName q.nextSeq) (payload, enqueuedAt)) result.1 result.2.1 := by
  obtain ⟨hdisk, seqs, hrep⟩ := hsound
  have hnew := hrep.register
    (lookup_rename_entry disk q.nextSeq
      (newEntryFile payload enqueuedAt).marshal)
    (fun id hid => lookup_rename_other disk _ hid)
  obtain ⟨expired, mid, excess, hexpired, -, hexcess, -⟩ := evicts_register dir enqueuedAt
    { q with nextSeq := q.nextSeq + 1 } _ (seqName q.nextSeq) _
  exact (hexpired.trans hexcess).sound
    ⟨diskOk_rename hdisk q.nextSeq payload enqueuedAt, _, hnew⟩

structure Store.Ok (s : Store) : Prop where
  disk : DiskOk s.disk s.log
  queue : ∀ q, s.queue = some q → ∃ seqs, Represents q s.disk seqs

theorem Store.ok_of_sound (hsound : Sound log q disk) : Store.Ok ⟨disk, log, some q⟩ where
  disk := hsound.1
  queue _ hq := Option.some.inj hq ▸ hsound.2

theorem Store.ok_of_diskOk (hdisk : DiskOk disk log) : Store.Ok ⟨disk, log, none⟩ where
  disk := hdisk
  queue _ hq := absurd hq.symm (Option.some_ne_none _)

theorem diskOk_writeFile (hdisk : DiskOk disk log) (seq : Nat) (written : Option String) :
    DiskOk (writeFile disk (tmpName seq) written) log := by
  cases written with
  | none => exact hdisk
  | some content => exact hdisk.insert_tmp seq content

theorem lookup_writeFile (disk : Disk) (seq : Nat) (written : Option String) (id : Name) :
    (writeFile disk (tmpName seq) written).lookup (id ++ jsonSuffix) =
      disk.lookup (id ++ jsonSuffix) := by
  cases written with
  | none => rfl
  | some content => exact lookup_insert_tmp disk seq content id

theorem Sound.writeFile (hsound : Sound log q disk) (written : Option String) :
    Sound log { q with nextSeq := q.nextSeq + 1 }
      (StoreForward.writeFile disk (tmpName q.nextSeq) written) := by
  obtain ⟨hdisk, seqs, hrep⟩ := hsound
  exact ⟨diskOk_writeFile hdisk q.nextSeq written, seqs,
    hrep.of_lookup_json (lookup_writeFile disk q.nextSeq written)
      (Nat.le_succ _)⟩

theorem ok_enqueue (dir : Dir) (hsound : Sound log q disk) (payload : List UInt8) (enqueuedAt : Int)
    (fault : Fault) :
    Store.Ok
      ⟨(q.enqueue dir disk payload enqueuedAt fault).2,
        if fault.renamed then
          log.insert (seqName q.nextSeq) (payload, enqueuedAt)
        else log, (q.enqueue dir disk payload enqueuedAt fault).1.map Prod.fst⟩ := by
  have hjoin : dir.join (seqName q.nextSeq ++ jsonSuffix) =
      some (entryName q.nextSeq) := join_append_json dir (slash_not_mem_seqName _)
  unfold Queue.enqueue
  dsimp only
  rw [hjoin]
  cases fault with
  | none => exact Store.ok_of_sound (sound_register dir hsound payload enqueuedAt)
  | writeFails written => exact Store.ok_of_sound (hsound.writeFile written)
  | renameFails => exact Store.ok_of_sound (hsound.writeFile (some _))
  | crashInWrite written => exact Store.ok_of_diskOk (hsound.writeFile written).1
  | crashBeforeRename => exact Store.ok_of_diskOk (hsound.writeFile (some _)).1
  | crashAfterRename =>
    exact Store.ok_of_diskOk
      (diskOk_rename hsound.1 q.nextSeq payload enqueuedAt)

theorem ok_peek (dir : Dir) (hsound : Sound log q disk) :
    Store.Ok ⟨(q.peek dir disk).1.2, log, some (q.peek dir disk).1.1⟩ := by
  apply Store.ok_of_sound
  unfold Queue.peek
  split
  · exact hsound
  next id rest horder =>
    split
    · exact hsound.remove_head dir horder
    · split
      · exact hsound.remove_head dir horder
      · exact hsound

/-! ## Opening a directory -/

theorem signedDecimalValue_seqName (seq : Nat) :
    signedDecimalValue (seqName seq) = some (seq : Int) :=
  signedDecimalValue_paddedDecimal 20 seq

theorem indexEntry_entryName (hlookup : disk.lookup (entryName seq) = some content) :
    indexEntry disk (entryName seq) =
      some ⟨seqName seq, seq, content.utf8ByteSize⟩ := by
  have hsuffix : jsonSuffix <:+ entryName seq := List.suffix_append _ _
  have htake : (entryName seq).take
      ((entryName seq).length - jsonSuffix.length) = seqName seq := by
    simp [entryName]
  rw [indexEntry, if_pos hsuffix, htake]
  dsimp only
  rw [signedDecimalValue_seqName, hlookup]

variable {e : IdSeq}

theorem eq_of_indexEntry (hentry : indexEntry disk name = some e) : name = e.id ++ jsonSuffix := by
  unfold indexEntry at hentry
  split at hentry
  next hsuffix =>
    dsimp only at hentry
    split at hentry
    · cases hentry
      obtain ⟨front, rfl⟩ := hsuffix
      simp
    · contradiction
  · contradiction

/-- The index entries that `Open` collects. -/
def indexed (disk : Disk) : List IdSeq :=
  (readDir disk).filterMap (indexEntry disk)

theorem mem_indexed (hdisk : DiskOk disk log) :
    e ∈ indexed disk ↔ ∃ (seq : Nat) (content : String),
      disk.lookup (entryName seq) = some content ∧
      e = ⟨seqName seq, seq, content.utf8ByteSize⟩ := by
  have hread : ∀ name, name ∈ readDir disk ↔ name ∈ disk := by
    intro name
    rw [readDir, List.mem_insertionSort, AList.mem_keys]
  constructor
  · intro hmem
    obtain ⟨name, hname, hentry⟩ := List.mem_filterMap.mp hmem
    obtain ⟨content, hlookup⟩ := exists_lookup_of_mem ((hread name).mp hname)
    rcases hdisk name content hlookup with ⟨seq, -, -, rfl, -, -⟩ | ⟨seq, rfl⟩
    · rw [indexEntry_entryName hlookup, Option.some.injEq] at hentry
      exact ⟨seq, content, hlookup, hentry.symm⟩
    · rw [indexEntry, tmpName, if_neg (not_json_suffix_tmp _)] at hentry
      contradiction
  · rintro ⟨seq, content, hlookup, rfl⟩
    exact List.mem_filterMap.mpr ⟨entryName seq,
      (hread _).mpr (mem_of_lookup hlookup), indexEntry_entryName hlookup⟩

theorem nodup_indexed (disk : Disk) : ((indexed disk).map IdSeq.id).Nodup := by
  have hnames : (readDir disk).Nodup :=
    (List.perm_insertionSort _ _).nodup_iff.mpr disk.keys_nodup
  rw [indexed, List.map_filterMap]
  refine hnames.filterMap ?_
  intro first second id hfirst hsecond
  obtain ⟨e, he, rfl⟩ := Option.map_eq_some_iff.mp hfirst
  obtain ⟨e', he', hid⟩ := Option.map_eq_some_iff.mp hsecond
  rw [eq_of_indexEntry he, eq_of_indexEntry he', hid]

/-- `Open` finds no two files of one sequence number. -/
def DistinctSeqs (disk : Disk) : Prop := ((indexed disk).map IdSeq.seq).Nodup

instance (disk : Disk) : Decidable (DistinctSeqs disk) :=
  inferInstanceAs (Decidable (List.Nodup _))

theorem distinctSeqs_of_diskOk (h : DiskOk disk log) : DistinctSeqs disk := by
  refine List.Nodup.map_on ?_ (nodup_indexed disk).of_map
  intro e he e' he' hseq
  obtain ⟨seq, content, hlookup, rfl⟩ := (mem_indexed h).mp he
  obtain ⟨seq', content', hlookup', rfl⟩ := (mem_indexed h).mp he'
  cases Int.ofNat.inj hseq
  rw [hlookup] at hlookup'
  cases hlookup'
  rfl

theorem sorted_indexed (hdistinct : DistinctSeqs disk) :
    ((indexed disk).insertionSort fun a b => a.seq ≤ b.seq).Pairwise fun a b => a.seq < b.seq := by
  have hsorted := List.pairwise_insertionSort (fun a b : IdSeq => a.seq ≤ b.seq) (indexed disk)
  have hperm := List.perm_insertionSort (fun a b : IdSeq => a.seq ≤ b.seq) (indexed disk)
  have hne := List.pairwise_map.mp ((hperm.map IdSeq.seq).nodup_iff.mpr hdistinct)
  exact (hsorted.and hne).imp fun h => lt_of_le_of_ne h.1 h.2

def sortedSeqs (disk : Disk) : List Nat :=
  ((indexed disk).insertionSort fun a b => a.seq ≤ b.seq).map
    fun e => e.seq.toNat

theorem mem_sortedSeqs (hdisk : DiskOk disk log) :
    seq ∈ sortedSeqs disk ↔ entryName seq ∈ disk := by
  simp only [sortedSeqs, List.mem_map, List.mem_insertionSort, mem_indexed hdisk]
  constructor
  · rintro ⟨e, ⟨found, content, hlookup, rfl⟩, rfl⟩
    exact mem_of_lookup hlookup
  · intro hmem
    obtain ⟨content, hlookup⟩ := exists_lookup_of_mem hmem
    exact ⟨_, ⟨seq, content, hlookup, rfl⟩, rfl⟩

theorem sorted_sortedSeqs (hdisk : DiskOk disk log) : (sortedSeqs disk).Pairwise (· < ·) := by
  refine List.pairwise_map.mpr ((sorted_indexed (distinctSeqs_of_diskOk hdisk)).imp_of_mem ?_)
  intro a b ha hb hlt
  obtain ⟨m, _, _, rfl⟩ := (mem_indexed hdisk).mp ((List.mem_insertionSort _).mp ha)
  obtain ⟨n, _, _, rfl⟩ := (mem_indexed hdisk).mp ((List.mem_insertionSort _).mp hb)
  exact Int.ofNat_lt.mp hlt

theorem le_nextSeq_foldl (ids : List IdSeq) (start : Nat) :
    start ≤ ids.foldl nextSeqAfter start ∧
      ∀ e ∈ ids, e.seq < ids.foldl nextSeqAfter start := by
  induction ids generalizing start with
  | nil => exact ⟨Nat.le_refl _, fun e he => absurd he List.not_mem_nil⟩
  | cons e ids ih =>
    obtain ⟨hle, hall⟩ := ih (nextSeqAfter start e)
    have hstep : start ≤ nextSeqAfter start e ∧ e.seq < nextSeqAfter start e := by
      unfold nextSeqAfter
      split <;> omega
    rw [List.foldl_cons]
    refine ⟨hstep.1.trans hle, ?_⟩
    intro other hother
    rcases List.mem_cons.mp hother with rfl | hrest
    · omega
    · exact hall other hrest

theorem represents_openQueue (hdisk : DiskOk disk log) (maxSizeBytes maxAge : Int) :
    Represents (openQueue disk maxSizeBytes maxAge) disk (sortedSeqs disk) := by
  have hnodup := nodup_indexed disk
  refine ⟨?_, sorted_sortedSeqs hdisk, ?_, ?_, ?_, ?_⟩
  · rw [sortedSeqs, List.map_map]
    apply List.map_congr_left
    intro e he
    obtain ⟨seq, -, -, rfl⟩ :=
      (mem_indexed hdisk).mp ((List.mem_insertionSort _).mp he)
    rfl
  · intro seq
    exact (mem_sortedSeqs hdisk).symm
  · intro id
    change (insertAll IdSeq.id IdSeq.size ∅ (indexed disk)).lookup id = _
    cases hlookup : disk.lookup (id ++ jsonSuffix) with
    | none =>
      rw [fileSize, hlookup, lookup_insertAll_of_notMem]
      · rfl
      · intro hmem
        obtain ⟨e, he, rfl⟩ := List.mem_map.mp hmem
        obtain ⟨seq, content, hfound, rfl⟩ := (mem_indexed hdisk).mp he
        rw [entryName, hlookup] at hfound
        contradiction
    | some content =>
      obtain ⟨seq, rfl⟩ := hdisk.seq_of_mem (mem_of_lookup hlookup)
      have hmem := (mem_indexed hdisk).mpr ⟨seq, content, hlookup, rfl⟩
      rw [fileSize, hlookup]
      exact lookup_insertAll_of_mem IdSeq.id IdSeq.size hmem hnodup ∅
  · change (indexed disk).foldl (fun total e => total + e.size) 0 =
      valueSum (insertAll IdSeq.id IdSeq.size ∅ (indexed disk))
    rw [valueSum_insertAll IdSeq.id IdSeq.size hnodup]
    · rfl
    · intro e _
      exact AList.notMem_empty _
  · intro seq hseq
    obtain ⟨content, hlookup⟩ :=
      exists_lookup_of_mem ((mem_sortedSeqs hdisk).mp hseq)
    have hmem := (mem_indexed hdisk).mpr ⟨seq, content, hlookup, rfl⟩
    have hlt := (le_nextSeq_foldl (indexed disk) 0).2 _ hmem
    exact Int.ofNat_lt.mp hlt

/-! ## Runs -/

def RemovalOk (dir : Dir) (s : Store) : Op → Prop
  | .remove id => RemovesOwn dir s.disk id
  | _ => True

/-- The op does not hand a path with a separator to `Remove`. -/
def Op.plain : Op → Bool
  | .remove id => '/' ∉ id
  | _ => true

variable {op : Op}

theorem removalOk_of_plain (dir : Dir) (s : Store) (hplain : op.plain = true) :
    RemovalOk dir s op := by
  cases op with
  | remove id => exact removesOwn_of_no_slash dir s.disk (of_decide_eq_true hplain)
  | _ => trivial

theorem ok_step {s s' : Store} (hok : s.Ok) (hremoval : RemovalOk dir s op)
    (hstep : s.step dir op = some s') : s'.Ok := by
  cases op with
  | openQueue maxSizeBytes maxAge =>
    cases hstep
    exact Store.ok_of_sound ⟨hok.disk, _, represents_openQueue hok.disk maxSizeBytes maxAge⟩
  | crash =>
    cases hstep
    exact Store.ok_of_diskOk hok.disk
  | enqueue payload enqueuedAt fault =>
    obtain ⟨q, hq, rfl⟩ := Option.map_eq_some_iff.mp hstep
    exact ok_enqueue dir ⟨hok.disk, hok.queue q hq⟩ payload enqueuedAt fault
  | peek =>
    obtain ⟨q, hq, rfl⟩ := Option.map_eq_some_iff.mp hstep
    exact ok_peek dir ⟨hok.disk, hok.queue q hq⟩
  | remove id =>
    obtain ⟨q, hq, rfl⟩ := Option.map_eq_some_iff.mp hstep
    exact Store.ok_of_sound
      (Sound.remove ⟨hok.disk, hok.queue q hq⟩ hremoval)

theorem ok_empty : Store.empty.Ok := Store.ok_of_diskOk diskOk_empty

/-- What `Peek` returns for the entry `id`. -/
def entryAt (dir : Dir) (disk : Disk) (id : Name) : Option Entry :=
  (readLocked dir disk id).bind fun ef =>
    (Base64.decode ef.payload.toList).map fun payload =>
      ⟨id, payload, ef.enqueuedAtUnixNano.toInt⟩

structure Consistent (q : Queue) (disk : Disk) : Prop where
  increasing : q.order.Pairwise fun first second =>
    ∃ m n : Int, signedDecimalValue first = some m ∧ signedDecimalValue second = some n ∧ m < n
  nodup : q.order.Nodup
  domain : ∀ id, id ∈ q.sizes ↔ id ∈ q.order
  files : ∀ name, (name ∈ disk ∧ jsonSuffix <:+ name) ↔ ∃ id ∈ q.order, name = id ++ jsonSuffix
  total_eq : q.total = valueSum q.sizes
  size_eq : ∀ id ∈ q.order, ∃ content,
    disk.lookup (id ++ jsonSuffix) = some content ∧
      q.sizes.lookup id = some (content.utf8ByteSize : Int)
  next_gt : ∀ id ∈ q.order, ∃ n : Int, signedDecimalValue id = some n ∧ n < q.nextSeq

structure Reopens (dir : Dir) (s : Store) (q reopened : Queue) : Prop where
  order_eq : reopened.order = q.order
  sizes_eq : ∀ id, reopened.sizes.lookup id = q.sizes.lookup id
  total_eq : reopened.total = q.total
  entries : ∀ id ∈ reopened.order, ∃ payload enqueuedAt,
    s.log.lookup id = some (payload, enqueuedAt) ∧
      entryAt dir s.disk id =
        some ⟨id, payload, (Int64.ofInt enqueuedAt).toInt⟩

theorem Represents.mem_order_iff (hdisk : DiskOk disk log) (hrep : Represents q disk seqs)
    (id : Name) : id ∈ q.order ↔ id ++ jsonSuffix ∈ disk := by
  rw [hrep.order_eq, List.mem_map]
  constructor
  · rintro ⟨seq, hseq, rfl⟩
    exact (hrep.files seq).mpr hseq
  · intro hmem
    obtain ⟨seq, rfl⟩ := hdisk.seq_of_mem hmem
    exact ⟨seq, (hrep.files seq).mp hmem, rfl⟩

theorem Represents.consistent (hdisk : DiskOk disk log) (hrep : Represents q disk seqs) :
    Consistent q disk := by
  have hmem := hrep.mem_order_iff hdisk
  refine ⟨?_, hrep.nodup, ?_, ?_, hrep.total_eq, ?_, ?_⟩
  · rw [hrep.order_eq, List.pairwise_map]
    refine hrep.sorted.imp ?_
    intro m n hlt
    exact ⟨m, n, signedDecimalValue_seqName m, signedDecimalValue_seqName n, Int.ofNat_lt.mpr hlt⟩
  · intro id
    rw [hmem, ← AList.lookup_isSome, ← AList.lookup_isSome, hrep.sizes_eq,
      fileSize, Option.isSome_map]
  · intro name
    constructor
    · rintro ⟨hname, id, rfl⟩
      exact ⟨id, (hmem id).mpr hname, rfl⟩
    · rintro ⟨id, hid, rfl⟩
      exact ⟨(hmem id).mp hid, List.suffix_append _ _⟩
  · intro id hid
    obtain ⟨content, hlookup⟩ := exists_lookup_of_mem ((hmem id).mp hid)
    refine ⟨content, hlookup, ?_⟩
    rw [hrep.sizes_eq, fileSize, hlookup]
    rfl
  · intro id hid
    rw [hrep.order_eq] at hid
    obtain ⟨seq, hseq, rfl⟩ := List.mem_map.mp hid
    exact ⟨seq, signedDecimalValue_seqName seq, Int.ofNat_lt.mpr (hrep.next_gt seq hseq)⟩

theorem Represents.unique {q' : Queue} {seqs' : List Nat} (hrep : Represents q disk seqs)
    (hrep' : Represents q' disk seqs') :
    q'.order = q.order ∧ (∀ id, q'.sizes.lookup id = q.sizes.lookup id) ∧
      q'.total = q.total := by
  have hperm : seqs'.Perm seqs := by
    apply (List.perm_ext_iff_of_nodup (hrep'.sorted.imp Nat.ne_of_lt)
      (hrep.sorted.imp Nat.ne_of_lt)).mpr
    intro seq
    rw [← hrep.files, ← hrep'.files]
  have hseqs : seqs' = seqs :=
    hperm.eq_of_pairwise
      (fun a b _ _ hab hba => absurd hab (Nat.lt_asymm hba))
      hrep'.sorted hrep.sorted
  have hsizes : ∀ id, q'.sizes.lookup id = q.sizes.lookup id := by
    intro id
    rw [hrep'.sizes_eq, hrep.sizes_eq]
  refine ⟨?_, hsizes, ?_⟩
  · rw [hrep'.order_eq, hrep.order_eq, hseqs]
  · rw [hrep'.total_eq, hrep.total_eq, valueSum_congr hsizes]

theorem Represents.readable (hdisk : DiskOk disk log) (hrep : Represents q disk seqs) (dir : Dir)
    (hid : id ∈ q.order) :
    ∃ payload enqueuedAt, log.lookup id = some (payload, enqueuedAt) ∧
      entryAt dir disk id =
        some ⟨id, payload, (Int64.ofInt enqueuedAt).toInt⟩ := by
  have hmem := (hrep.mem_order_iff hdisk id).mp hid
  obtain ⟨content, hlookup⟩ := exists_lookup_of_mem hmem
  obtain ⟨seq, rfl⟩ := hdisk.seq_of_mem hmem
  have hjoin := join_append_json dir (slash_not_mem_seqName seq)
  rcases hdisk _ _ hlookup with
    ⟨found, payload, enqueuedAt, hname, hlog, rfl⟩ | ⟨found, hname⟩
  · rw [← List.append_cancel_right hname] at hlog
    refine ⟨payload, enqueuedAt, hlog, ?_⟩
    rw [entryAt, readLocked, hjoin]
    simp only [Option.bind_some, hlookup, EntryFile.unmarshal_marshal]
    rw [newEntryFile, String.toList_ofList, Base64.decode_encode]
    rfl
  · exact absurd hname.symm (tmp_ne_append_json _ _)

/--
The durable queue over a directory of its own: in every run, crashes and failed
writes included, in which no `Remove` is given a path to the file of another
entry, the index of the running queue agrees with the directory, and opening
the directory again yields the same queue.
-/
theorem queue_survives_reopen (dir : Dir) (ops : List Op)
    (hremovals : Meets (Store.step dir) (RemovalOk dir) .empty ops)
    {s : Store} (hrun : run (Store.step dir) .empty ops = some s)
    {q : Queue} (hq : s.queue = some q) (maxSizeBytes maxAge : Int) :
    Consistent q s.disk ∧
      Reopens dir s q (openQueue s.disk maxSizeBytes maxAge) := by
  have hok : s.Ok := run_invariant_of_meets ok_step ok_empty hremovals hrun
  obtain ⟨seqs, hrep⟩ := hok.queue q hq
  obtain ⟨horder, hsizes, htotal⟩ :=
    hrep.unique (represents_openQueue hok.disk maxSizeBytes maxAge)
  refine ⟨hrep.consistent hok.disk, horder, hsizes, htotal, ?_⟩
  intro id hid
  exact hrep.readable hok.disk dir (horder ▸ hid)

def dataDir : Dir := ⟨true, [['d', 'a', 't', 'a']]⟩

def crashAndReopen : List Op :=
  [.openQueue 0 0, .enqueue [1] 5 .none, .enqueue [2] 6 .crashBeforeRename,
    .openQueue 0 0, .remove ['x']]

theorem queue_survives_reopen_after_crash :
    ∃ s q, run (Store.step dataDir) .empty crashAndReopen = some s ∧
      s.queue = some q ∧ q.order = [seqName 0] ∧
      Reopens dataDir s q (openQueue s.disk 0 0) := by
  refine ⟨_, _, rfl, rfl, by decide +kernel, ?_⟩
  have hplain : ∀ op ∈ crashAndReopen, op.plain = true := by decide
  have hremovals : Meets (Store.step dataDir) (RemovalOk dataDir) .empty
      crashAndReopen :=
    (meets_of_forall hplain Store.empty).imp fun s _ => removalOk_of_plain dataDir s
  exact (queue_survives_reopen dataDir crashAndReopen hremovals rfl rfl 0 0).2

def removeByPath : List Op :=
  [.openQueue 0 0, .enqueue [1] 5 .none, .remove (['.', '/'] ++ seqName 0)]

theorem removeByPath_leaves_stale_index :
    ¬ ∀ (dir : Dir) (ops : List Op) (s : Store) (q : Queue),
      run (Store.step dir) .empty ops = some s → s.queue = some q →
        Consistent q s.disk := by
  intro hall
  have hconsistent := hall dataDir removeByPath _ _ rfl rfl
  obtain ⟨content, hlookup, -⟩ := hconsistent.size_eq (seqName 0)
    (by decide +kernel)
  have hfound := Option.isSome_of_eq_some hlookup
  exact absurd hfound (by decide +kernel)

end DataPipe.StoreForward
