import DataPipe.StoreForward.Drain

/-!
# One queue at a time over a directory

A directory outlives the queues that are opened over it.  As long as one queue
has left before the next is opened, every entry is delivered at most once and a
new entry never gets the number of one that is still there.
-/

set_option linter.dupNamespace false

namespace DataPipe.StoreForward

open DataPipe.Foundation

/--
The files of a directory.  `created` counts the entry files that were written
under a name, so a name and a count denote one entry, and `delivered` holds the
entries for which a `deliver` returned nil.
-/
structure Directory where
  disk : Disk
  created : Name → Nat
  delivered : List (Name × Nat)

namespace Directory

def handed (d : Directory) (s : DrainState) (answer : Bool) : List (Name × Nat) :=
  match s.pc, answer with
  | .deliver entry, true => [(entry.id, d.created entry.id)]
  | _, _ => []

def drain (dir : Dir) (d : Directory) (s : DrainState) (answer : Bool) :
    Option (Directory × DrainState) :=
  match DrainState.drain dir { s with disk := d.disk } answer with
  | none => none
  | some s' =>
    some ({ d with disk := s'.disk, delivered := d.delivered ++ d.handed s answer }, s')

/-- The counts after an `Enqueue` under this name. -/
def recreated (d : Directory) (id : Name) (fault : Fault) : Name → Nat :=
  if fault.renamed then Function.update d.created id (d.created id + 1) else d.created

def enqueue (dir : Dir) (d : Directory) (s : DrainState) (payload : List UInt8)
    (enqueuedAt : Int) (fault : Fault) : Option (Directory × DrainState) :=
  match DrainState.step dir { s with disk := d.disk } (.enqueue payload enqueuedAt fault) with
  | none => none
  | some s' =>
    some ({ d with
      disk := s'.disk
      created := d.recreated (seqName s.queue.nextSeq) fault }, s')

structure Settled (d : Directory) (s : DrainState) : Prop where
  represents : ∃ seqs, Represents s.queue d.disk seqs
  sound : s.Sound
  named : ∀ entry, s.pc = .deliver entry ∨ s.pc = .remove entry → ∃ seq, entry.id = seqName seq
  pending : ∀ entry, s.pc = .deliver entry → (entry.id, d.created entry.id) ∉ d.delivered

structure Kept (d : Directory) (tenant : Option DrainState) : Prop where
  disk : ∃ log, DiskOk d.disk log
  once : d.delivered.Nodup
  older : ∀ id n, (id, n) ∈ d.delivered → n ≤ d.created id ∧ ∃ seq, id = seqName seq
  gone : ∀ id, (id, d.created id) ∈ d.delivered → id ++ jsonSuffix ∉ d.disk ∨
    ∃ s entry, tenant = some s ∧ s.pc = .remove entry ∧ entry.id = id
  tenant : ∀ s, tenant = some s → d.Settled s

variable {disk : Disk} {q : Queue} {seqs : List Nat} {id : Name} {fault : Fault}

variable {dir : Dir} {d d' : Directory} {s s' : DrainState} {answer : Bool} {payload : List UInt8}
  {enqueuedAt : Int}

theorem Kept.opened (h : d.Kept none) (maxSizeBytes maxAge : Int) :
    d.Kept (some (.start (openQueue d.disk maxSizeBytes maxAge) d.disk)) := by
  obtain ⟨log, hdisk⟩ := h.disk
  refine ⟨h.disk, h.once, h.older, ?_, ?_⟩
  · intro id hid
    refine .inl ((h.gone id hid).resolve_right ?_)
    rintro ⟨_, _, hnone, -⟩
    contradiction
  · rintro s ⟨⟩
    refine ⟨⟨_, represents_openQueue hdisk maxSizeBytes maxAge⟩,
      DrainState.sound_start (distinctSeqs_of_diskOk hdisk) maxSizeBytes maxAge d.disk, ?_, ?_⟩
    · simp [DrainState.start]
    · simp [DrainState.start]

theorem Kept.left (h : d.Kept (some s)) (hstopped : s.pc = .stopped) : d.Kept none := by
  refine ⟨h.disk, h.once, h.older, ?_, nofun⟩
  intro id hid
  refine .inl ((h.gone id hid).resolve_right ?_)
  rintro ⟨_, entry, ⟨⟩, hpc, -⟩
  rw [hstopped] at hpc
  contradiction

theorem Kept.cancelled (h : d.Kept (some s)) : d.Kept (some { s with ctxDone := true }) := by
  have hs := h.tenant s rfl
  refine ⟨h.disk, h.once, h.older, ?_, ?_⟩
  · intro id hid
    refine (h.gone id hid).imp_right ?_
    rintro ⟨_, entry, ⟨⟩, hpc, hentry⟩
    exact ⟨_, entry, rfl, hpc, hentry⟩
  · rintro _ ⟨⟩
    have hsound := hs.sound
    exact ⟨hs.represents, ⟨hsound.numbered, hsound.ordered, hsound.apart, hsound.spent,
      hsound.last⟩, hs.named, hs.pending⟩

theorem mem_order_iff (h : Represents q disk seqs)
    (seq : Nat) : entryName seq ∈ disk ↔ seqName seq ∈ q.order := by
  rw [h.files, h.order_eq, List.mem_map_of_injective seqName_injective]

theorem exists_seq_of_mem_order (h : Represents q disk seqs) (hid : id ∈ q.order) :
    ∃ seq, id = seqName seq := by
  rw [h.order_eq] at hid
  obtain ⟨seq, -, rfl⟩ := List.mem_map.mp hid
  exact ⟨seq, rfl⟩

variable {entry : Entry}

theorem taken_of_drain (hstep : s.drain dir answer = some s') (hpc' : s'.pc = .deliver entry) :
    s.pc = .peek ∧ ∃ rest, s.queue.order = entry.id :: rest := by
  cases DrainState.drains_of_drain hstep with
  | taken hpc horder =>
    cases hpc'
    exact ⟨hpc, _, horder⟩
  | idle _ hidle =>
    cases hpc'
    contradiction
  | unreadable | delivered | removed => cases hpc'

theorem removing_of_drain (hstep : s.drain dir answer = some s') :
    s'.pc = .remove entry ↔ s.pc = .deliver entry ∧ answer = true := by
  cases hpc : s.pc <;> simp only [DrainState.drain] at hstep <;> grind

theorem sound_drained {log : Log} (h : Sound log s.queue s.disk)
    (hnamed : ∀ entry, s.pc = .remove entry → ∃ seq, entry.id = seqName seq)
    (hstep : s.drain dir answer = some s') : Sound log s'.queue s'.disk := by
  cases hpc : s.pc with
  | peek =>
    simp only [DrainState.drain, hpc, Option.some.injEq] at hstep
    subst hstep
    exact ⟨(ok_peek dir h).disk, (ok_peek dir h).queue _ rfl⟩
  | remove entry =>
    obtain ⟨seq, hseq⟩ := hnamed entry hpc
    simp only [DrainState.drain, hpc, Option.some.injEq] at hstep
    subst hstep
    refine h.remove (removesOwn_of_no_slash dir s.disk ?_)
    rw [hseq]
    exact slash_not_mem_seqName seq
  | _ =>
    simp only [DrainState.drain] at hstep
    grind

theorem Settled.withDisk (h : d.Settled s) : DrainState.Sound { s with disk := d.disk } :=
  ⟨h.sound.numbered, h.sound.ordered, h.sound.apart, h.sound.spent, h.sound.last⟩

theorem Kept.stored (h : d.Kept (some s)) : ∃ log, Sound log s.queue d.disk := by
  obtain ⟨log, hdisk⟩ := h.disk
  exact ⟨log, hdisk, (h.tenant s rfl).represents⟩

theorem mem_handed {x : Name × Nat} : x ∈ d.handed s answer ↔
    ∃ entry, s.pc = .deliver entry ∧ answer = true ∧ x = (entry.id, d.created entry.id) := by
  unfold handed
  split
  next entry hpc => simp [hpc]
  next hnot =>
    simp only [List.not_mem_nil, false_iff]
    rintro ⟨entry, hpc, rfl, -⟩
    exact hnot entry hpc rfl

theorem Kept.nodup_handed (h : d.Kept (some s)) (answer : Bool) :
    (d.delivered ++ d.handed s answer).Nodup := by
  refine h.once.append ?_ ?_
  · unfold handed
    split <;> simp
  · intro x hold hnew
    obtain ⟨entry, hpc, -, rfl⟩ := mem_handed.mp hnew
    exact (h.tenant s rfl).pending entry hpc hold

theorem Kept.drained (h : d.Kept (some s)) (hstep : d.drain dir s answer = some (d', s')) :
    d'.Kept (some s') := by
  have hs := h.tenant s rfl
  unfold Directory.drain at hstep
  split at hstep
  · contradiction
  rename_i next hdrain
  cases hstep
  obtain ⟨log, hstored⟩ := h.stored
  obtain ⟨seqs, hrep⟩ := hs.represents
  obtain ⟨hdisk', seqs', hrep'⟩ := @sound_drained dir { s with disk := d.disk } s' answer log
    hstored (fun entry hpc => hs.named entry (.inr hpc)) hdrain
  have hsub := (DrainState.order_of_drain hdrain).1.subset
  refine ⟨⟨log, hdisk'⟩, h.nodup_handed answer, ?_, ?_, ?_⟩
  · intro id n hmem
    rcases List.mem_append.mp hmem with hold | hnew
    · exact h.older id n hold
    · obtain ⟨entry, hpc, -, hentry⟩ := mem_handed.mp hnew
      cases hentry
      exact ⟨Nat.le_refl _, hs.named entry (.inl hpc)⟩
  · intro id hmem
    rcases List.mem_append.mp hmem with hold | hnew
    · left
      obtain ⟨-, seq, rfl⟩ := h.older id _ hold
      intro hleft
      have horder := (mem_order_iff hrep' seq).mp hleft
      rcases h.gone _ hold with habsent | ⟨_, entry, ⟨⟩, hpc, hid⟩
      · exact habsent ((mem_order_iff hrep seq).mpr (hsub horder))
      · simp only [DrainState.drain, hpc, Option.some.injEq] at hdrain
        subst hdrain
        rw [order_removeLocked, hid] at horder
        exact hrep.nodup.not_mem_erase horder
    · right
      obtain ⟨entry, hpc, hanswer, hentry⟩ := mem_handed.mp hnew
      cases hentry
      exact ⟨_, entry, rfl, (removing_of_drain hdrain).mpr ⟨hpc, hanswer⟩, rfl⟩
  · rintro _ ⟨⟩
    refine ⟨⟨seqs', hrep'⟩, DrainState.sound_drain hs.withDisk hdrain, ?_, ?_⟩
    · rintro entry (hpc | hpc)
      · obtain ⟨-, rest, horder⟩ := taken_of_drain hdrain hpc
        exact exists_seq_of_mem_order hrep (horder ▸ List.mem_cons_self)
      · exact hs.named entry (.inl ((removing_of_drain hdrain).mp hpc).1)
    · intro entry hpc' hmem
      obtain ⟨hpc, rest, horder⟩ := taken_of_drain hdrain hpc'
      have hhead : entry.id ∈ s.queue.order := horder ▸ List.mem_cons_self
      obtain ⟨seq, hseq⟩ := exists_seq_of_mem_order hrep hhead
      rcases List.mem_append.mp hmem with hold | hnew
      · rcases h.gone _ hold with habsent | ⟨_, other, ⟨⟩, hremove, -⟩
        · rw [hseq] at habsent hhead
          exact habsent ((mem_order_iff hrep seq).mpr hhead)
        · rw [hpc] at hremove
          contradiction
      · obtain ⟨other, hdeliver, -⟩ := mem_handed.mp hnew
        rw [hpc] at hdeliver
        contradiction

theorem Kept.delivered_before {tenant : Option DrainState} (h : d.Kept tenant) {new : Name}
    (hmem : (id, d.recreated new fault id) ∈ d.delivered) :
    (id, d.created id) ∈ d.delivered ∧ ¬ (fault.renamed = true ∧ id = new) := by
  unfold recreated at hmem
  split at hmem
  case isTrue hrenamed =>
    by_cases hnew : id = new
    · subst hnew
      rw [Function.update_self] at hmem
      have := (h.older _ _ hmem).1
      omega
    · rw [Function.update_of_ne hnew] at hmem
      exact ⟨hmem, fun h => hnew h.2⟩
  case isFalse hrenamed => exact ⟨hmem, fun h => hrenamed h.1⟩

theorem mem_order_of_enqueued {q' : Queue} (h : Enqueued dir q disk payload enqueuedAt fault q')
    (hid : id ∈ q'.order) : id ∈ q.order ∨ fault.renamed = true ∧ id = seqName q.nextSeq := by
  rcases h.order with ⟨horder, -⟩ | ⟨rfl, dropped, horder, -⟩
  · exact .inl (horder ▸ hid)
  · have hmem : id ∈ q.order ++ [seqName q.nextSeq] := by
      rw [horder]
      exact List.mem_append_right _ hid
    rcases List.mem_append.mp hmem with hold | hnew
    · exact .inl hold
    · exact .inr ⟨rfl, List.mem_singleton.mp hnew⟩

theorem Kept.enqueued (h : d.Kept (some s))
    (hstep : d.enqueue dir s payload enqueuedAt fault = some (d', s')) : d'.Kept (some s') := by
  have hs := h.tenant s rfl
  unfold Directory.enqueue at hstep
  split at hstep
  · contradiction
  rename_i next hnext
  cases hstep
  have hsound := DrainState.sound_step hs.withDisk hnext
  simp only [DrainState.step] at hnext
  split at hnext
  · contradiction
  rename_i q' result disk' henqueue
  cases hnext
  obtain ⟨log, hstored⟩ := h.stored
  obtain ⟨seqs, hrep⟩ := hs.represents
  have hentered := enqueued_of_enqueue hs.sound.numbered henqueue
  have hok := ok_enqueue dir hstored payload enqueuedAt fault
  rw [henqueue] at hok
  obtain ⟨seqs', hrep'⟩ := hok.queue q' rfl
  refine ⟨⟨_, hok.disk⟩, h.once, ?_, ?_, ?_⟩
  · intro id n hmem
    obtain ⟨hle, hseq⟩ := h.older id n hmem
    refine ⟨hle.trans ?_, hseq⟩
    dsimp only [recreated]
    split
    · by_cases hnew : id = seqName s.queue.nextSeq
      · rw [hnew, Function.update_self]
        omega
      · rw [Function.update_of_ne hnew]
    · exact Nat.le_refl _
  · intro id hmem
    obtain ⟨hbefore, hnot⟩ := h.delivered_before hmem
    obtain ⟨-, seq, rfl⟩ := h.older id _ hbefore
    rcases h.gone _ hbefore with habsent | ⟨_, entry, ⟨⟩, hpc, hid⟩
    · left
      intro hfile
      rcases mem_order_of_enqueued hentered ((mem_order_iff hrep' seq).mp hfile) with hold | hnew
      · exact habsent ((mem_order_iff hrep seq).mpr hold)
      · exact hnot hnew
    · exact .inr ⟨_, entry, rfl, hpc, hid⟩
  · rintro _ ⟨⟩
    refine ⟨⟨seqs', hrep'⟩, hsound, hs.named, ?_⟩
    intro entry hpc hmem
    exact hs.pending entry hpc (h.delivered_before hmem).1

theorem Kept.fresh (h : d.Kept (some s)) :
    (∀ seq, entryName seq ∈ d.disk → seq < s.queue.nextSeq) ∧
      ∀ id, s.held = some id → seqOf id < s.queue.nextSeq := by
  have hs := h.tenant s rfl
  obtain ⟨seqs, hrep⟩ := hs.represents
  exact ⟨fun seq hseq => hrep.next_gt seq ((hrep.files seq).mp hseq),
    fun id hid => hs.sound.spent id (.inr hid)⟩

end Directory

end DataPipe.StoreForward
