import DataPipe.Bus.FanOut

/-!
# Isolation of the copies

Every address belongs to one holder, to nobody, or to the large binary payload
that is shared on purpose.  `Clone` gives a copy cells of its own for all fields
but the payload value, a write stays within the cells of its holder, and so the
copies are independent exactly when the payload value has nothing to write.
-/

namespace DataPipe.Bus

open DataPipe.Foundation

def Frozen (threshold : Int) (heap : Heap Scalar) (owner : Nat → Owner Nat) (value : Val Scalar) :
    Prop :=
  ∃ address cell, value = .ref address ∧ owner address = .outside ∧
    heap[address]? = some cell ∧ cell.Atomic ∧ threshold ≤ cell.size

def Held (threshold : Int) (heap : Heap Scalar) (owner : Nat → Owner Nat) (i : Nat)
    (field : Field) (value : Val Scalar) : Prop :=
  Within heap owner i value ∨ field = .binary ∧ Frozen threshold heap owner value

def HolderOk (threshold : Int) (heap : Heap Scalar) (owner : Nat → Owner Nat) (i : Nat)
    (d : HeapDatagram) : Prop :=
  ∀ field value, d.root field = some value → Held threshold heap owner i field value

def Delivery.Apart (threshold : Int) (s : Delivery) : Prop :=
  ∃ owner : Nat → Owner Nat, Tidy s.heap owner ∧
    ∀ i d, s.holders[i]? = some d → HolderOk threshold s.heap owner i d

variable {cell : Cell Scalar} {field : Field}

section Holders

variable {threshold : Int} {heap heap' : Heap Scalar} {owner owner' : Nat → Owner Nat}
  {writers : Set Nat} {i : Nat} {d : HeapDatagram} {value : Val Scalar}

theorem Frozen.touched (h : Frozen threshold heap owner value)
    (htouch : Touches writers heap owner heap' owner') : Frozen threshold heap' owner' value := by
  obtain ⟨address, cell, rfl, howner, hcell, hatomic, hlarge⟩ := h
  have hlt := (List.getElem?_eq_some_iff.mp hcell).1
  exact ⟨address, cell, rfl, (htouch.owners address hlt).trans howner,
    htouch.getElem?_eq (by simp [howner]) hcell, hatomic, hlarge⟩

theorem Frozen.follow_eq (h : Frozen threshold heap owner value)
    (htouch : Touches writers heap owner heap' owner') (path : List Selector) :
    follow heap' value path = follow heap value path := by
  obtain ⟨address, cell, rfl, howner, hcell, hatomic, -⟩ := h
  cases path with
  | nil => rfl
  | cons selector path =>
    simp only [follow, hcell, htouch.getElem?_eq (by simp [howner]) hcell]
    cases hget : cell.get selector with
    | none => rfl
    | some next =>
      obtain ⟨a, rfl⟩ := hatomic selector next hget
      cases path <;> rfl

theorem Held.touched (h : Held threshold heap owner i field value)
    (htouch : Touches writers heap owner heap' owner') :
    Held threshold heap' owner' i field value :=
  h.imp htouch.within fun hfrozen => ⟨hfrozen.1, hfrozen.2.touched htouch⟩

theorem HolderOk.touched (h : HolderOk threshold heap owner i d)
    (htouch : Touches writers heap owner heap' owner') : HolderOk threshold heap' owner' i d :=
  fun field value hroot => (h field value hroot).touched htouch

theorem HolderOk.observe_eq (h : HolderOk threshold heap owner i d) (ht : Tidy heap owner)
    (htouch : Touches writers heap owner heap' owner') (hother : i ∉ writers) (field : Field)
    (path : List Selector) : d.observe heap' field path = d.observe heap field path := by
  unfold HeapDatagram.observe
  cases hroot : d.root field with
  | none => rfl
  | some value =>
    rcases h field value hroot with hwithin | ⟨-, hfrozen⟩
    · exact htouch.follow_eq ht hother hwithin path
    · exact hfrozen.follow_eq htouch path

theorem HolderOk.locate (h : HolderOk threshold heap owner i d) (ht : Tidy heap owner)
    {path : List Selector} (hlocate : d.locate threshold heap field path = some value) :
    Within heap owner i value := by
  unfold HeapDatagram.locate at hlocate
  split at hlocate
  case isFalse => contradiction
  case isTrue hwritable =>
    obtain ⟨base, hbase, hfollow⟩ := Option.bind_eq_some_iff.mp hlocate
    rcases h field base hbase with hwithin | ⟨rfl, address, cell, rfl, -, hcell, -, hlarge⟩
    · exact ht.within_follow hwithin hfollow
    · have hbinary : d.binary = some address := by
        simpa [HeapDatagram.root] using hbase
      simp only [HeapDatagram.writable, hbinary, Option.bind_some, hcell] at hwritable
      have hsmall := of_decide_eq_true hwritable
      omega

theorem prepare_spec (ht : Tidy heap owner) (hok : HolderOk threshold heap owner i d)
    {assigned : Assigned}
    (hprepare : Delivery.prepare threshold heap d assigned = some (heap', value)) :
    ∃ owner', Tidy heap' owner' ∧ Touches ∅ heap owner heap' owner' ∧
      Within heap' owner' i value := by
  cases assigned with
  | scalar a =>
    cases hprepare
    exact ⟨owner, ht, .refl _ _, trivial⟩
  | own field path =>
    obtain ⟨found, hlocate, heq⟩ := Option.map_eq_some_iff.mp hprepare
    cases heq
    exact ⟨owner, ht, .refl _ _, hok.locate ht hlocate⟩
  | newMap =>
    cases hprepare
    refine ⟨_, ht.alloc i ?_, .alloc _ _ _ _, by simp, .inl (Function.update_self _ _ _)⟩
    intro selector found hget
    cases selector <;> simp [Cell.get] at hget
  | newArray items =>
    cases hprepare
    refine ⟨_, ht.alloc i (Cell.atomic_array ?_), .alloc _ _ _ _, by simp,
      .inl (Function.update_self _ _ _)⟩
    intro item hitem
    obtain ⟨a, -, rfl⟩ := List.mem_map.mp hitem
    exact ⟨a, rfl⟩

theorem change_nil (address : Nat) (c : Change) :
    Delivery.change threshold heap d address (.array []) c = none := by
  cases c with
  | remove key => rfl
  | put selector assigned =>
    simp only [Delivery.change]
    split
    · rfl
    · cases selector <;> rfl

theorem change_spec (ht : Tidy heap owner) (hok : HolderOk threshold heap owner i d) {address : Nat}
    {c : Change} (hwithin : Within heap owner i (.ref address)) (hcell : heap[address]? = some cell)
    (hchange : Delivery.change threshold heap d address cell c = some heap') :
    ∃ owner', Tidy heap' owner' ∧ Touches {i} heap owner heap' owner' := by
  have howner : owner address = .holder i := by
    rcases hwithin.2 with hown | hempty
    · exact hown
    · rw [ht.empty address cell hcell hempty, change_nil] at hchange
      contradiction
  cases c with
  | remove key =>
    obtain ⟨cell', hremove, rfl⟩ := Option.map_eq_some_iff.mp hchange
    refine ⟨owner, ht.set howner ?_, .set howner cell'⟩
    intro selector found hget
    exact ht.closed address i cell selector found hcell howner
      (Cell.get_of_remove hremove hget)
  | put selector assigned =>
    simp only [Delivery.change] at hchange
    split at hchange
    · contradiction
    rename_i grown stored hprepare
    obtain ⟨cell', hput, rfl⟩ := Option.map_eq_some_iff.mp hchange
    obtain ⟨owner', ht', htouch, hstored⟩ := prepare_spec ht hok hprepare
    have howner' : owner' address = .holder i :=
      (htouch.owners address hwithin.1).trans howner
    refine ⟨owner', ht'.set howner' ?_, htouch.of_empty.trans (.set howner' cell')⟩
    intro other found hget
    rcases Cell.get_of_put hput hget with rfl | hold
    · exact hstored
    · exact htouch.within (ht.closed address i cell other found hcell howner hold)

end Holders

namespace Delivery

variable {threshold : Int} {s s' : Delivery} {w : Write}

theorem step_eq_some (hstep : s.step threshold w = some s') :
    ∃ d address cell, s.holders[w.holder]? = some d ∧
      d.locate threshold s.heap w.field w.path = some (.ref address) ∧
      s.heap[address]? = some cell ∧
      change threshold s.heap d address cell w.change = some s'.heap ∧
      s'.holders = s.holders := by
  revert hstep
  fun_cases step threshold s w <;> intro hstep <;> try contradiction
  next d hholder address hlocate cell hcell =>
  obtain ⟨heap, hchange, rfl⟩ := Option.map_eq_some_iff.mp hstep
  exact ⟨d, address, cell, hholder, hlocate, hcell, hchange, rfl⟩

theorem Apart.step (h : s.Apart threshold) (hstep : s.step threshold w = some s') :
    s'.Apart threshold ∧ ∀ j d, j ≠ w.holder → s'.holders[j]? = some d →
      ∀ field path, d.observe s'.heap field path = d.observe s.heap field path := by
  obtain ⟨owner, ht, hok⟩ := h
  obtain ⟨d, address, cell, hholder, hlocate, hcell, hchange, hholders⟩ := step_eq_some hstep
  have hwriter := hok w.holder d hholder
  obtain ⟨owner', ht', htouch⟩ :=
    change_spec ht hwriter (hwriter.locate ht hlocate) hcell hchange
  rw [hholders]
  refine ⟨⟨owner', ht', ?_⟩, ?_⟩
  · intro j other hj
    rw [hholders] at hj
    exact (hok j other hj).touched htouch
  · intro j other hne hj field path
    exact (hok j other hj).observe_eq ht htouch hne field path

theorem independent_of_alone (h : s.holders.length = 1) : s.Independent threshold := by
  intro writes s' w s'' hrun hcopy hstep
  have hkeep : ∀ {state : Delivery} {action next}, state.holders.length = 1 →
      state.step threshold action = some next → next.holders.length = 1 := by
    intro state action next hone hnext
    obtain ⟨-, -, -, -, -, -, -, hholders⟩ := step_eq_some hnext
    rw [hholders, hone]
  have halone : s'.holders.length = 1 :=
    @run_invariant _ _ _ (fun state => state.holders.length = 1) hkeep _ _ _ h hrun
  obtain ⟨d, -, -, hholder, -⟩ := step_eq_some hstep
  have hlt := (List.getElem?_eq_some_iff.mp hholder).1
  omega

theorem Apart.independent (h : s.Apart threshold) : s.Independent threshold := by
  intro writes s' w s'' hrun _ hstep
  have hapart : s'.Apart threshold := run_invariant (fun h hstep => (h.step hstep).1) h hrun
  exact (hapart.step hstep).2

end Delivery

/-- Which cells `Clone` copies. -/
def Field.copied (threshold : Int) : Field → Cell Scalar → Bool
  | .value => fun _ => false
  | .binary => fun cell => (cell.size : Int) < threshold
  | .trace => fun cell => 0 < cell.size
  | _ => fun _ => true

theorem Field.Holds.atomic (h : field.Holds cell) (hfield : field ≠ .value) : cell.Atomic := by
  cases field <;> cases cell <;> simp only [Field.Holds, ne_eq, not_true_eq_false] at h hfield
  case tags.map entries =>
    intro selector tag hget
    cases selector <;> simp only [Cell.get, reduceCtorEq] at hget
    obtain ⟨text, rfl⟩ := h _ tag hget
    exact ⟨_, rfl⟩
  case sourceTimestamp.box target =>
    obtain ⟨instant, rfl⟩ := h
    exact Cell.atomic_box _
  case ttlMillis.box target =>
    obtain ⟨n, rfl⟩ := h
    exact Cell.atomic_box _
  case binary.array items =>
    refine Cell.atomic_array fun item hitem => ?_
    obtain ⟨b, rfl⟩ := h item hitem
    exact ⟨_, rfl⟩
  case trace.array items =>
    refine Cell.atomic_array fun item hitem => ?_
    obtain ⟨e, rfl⟩ := h item hitem
    exact ⟨_, rfl⟩

def Origin (threshold : Int) (heap : Heap Scalar) (owner : Nat → Owner Nat)
    (d : HeapDatagram) : Prop :=
  ∀ field address, d.root field = some (.ref address) →
    ∃ cell, heap[address]? = some cell ∧ (field ≠ .value → cell.Atomic) ∧
      (field.copied threshold cell = false →
        ∀ k, Held threshold heap owner k field (.ref address))

section Copies

variable {threshold : Int} {heap heap' : Heap Scalar} {owner owner' : Nat → Owner Nat}
  {d : HeapDatagram}

theorem Origin.touched (h : Origin threshold heap owner d)
    (htouch : Touches ∅ heap owner heap' owner') : Origin threshold heap' owner' d := by
  intro field address hroot
  obtain ⟨cell, hcell, hatomic, hheld⟩ := h field address hroot
  exact ⟨cell, htouch.getElem?_eq (fun _ => False.elim) hcell, hatomic,
    fun hkept k => (hheld hkept k).touched htouch⟩

theorem copyWhen_spec (ht : Tidy heap owner) (horigin : Origin threshold heap owner d)
    (field : Field) (hfield : field ≠ .value) (old : Option Nat)
    (hroot : d.root field = old.map .ref) (k : Nat) :
    let copy := copyWhen (field.copied threshold) heap old
    ∃ owner', Tidy copy.1 owner' ∧ Touches ∅ heap owner copy.1 owner' ∧
      Origin threshold copy.1 owner' d ∧
      ∀ value, copy.2.map .ref = some value → Held threshold copy.1 owner' k field value := by
  cases old with
  | none => exact ⟨owner, ht, .refl _ _, horigin, by rintro value ⟨⟩⟩
  | some address =>
    obtain ⟨cell, hcell, hatomic, hheld⟩ := horigin field address hroot
    cases hcopied : field.copied threshold cell with
    | true =>
      simp only [copyWhen, hcell, hcopied]
      have htouch := Touches.alloc heap owner cell (.holder k)
      refine ⟨_, ht.alloc k (hatomic hfield), htouch, horigin.touched htouch, ?_⟩
      rintro value ⟨⟩
      exact .inl ⟨by simp, .inl (Function.update_self _ _ _)⟩
    | false =>
      simp only [copyWhen, hcell, hcopied]
      refine ⟨owner, ht, .refl _ _, horigin, ?_⟩
      rintro value ⟨⟩
      exact hheld hcopied k

theorem clone_spec (ht : Tidy heap owner) (horigin : Origin threshold heap owner d) (k : Nat) :
    let copy := d.clone threshold heap
    ∃ owner', Tidy copy.1 owner' ∧ Touches ∅ heap owner copy.1 owner' ∧
      HolderOk threshold copy.1 owner' k copy.2 := by
  obtain ⟨owner₁, ht₁, htouch₁, horigin₁, htags⟩ :=
    copyWhen_spec ht horigin .tags (by decide) d.tags rfl k
  obtain ⟨owner₂, ht₂, htouch₂, horigin₂, hstamp⟩ :=
    copyWhen_spec ht₁ horigin₁ .sourceTimestamp (by decide) d.sourceTimestamp rfl k
  obtain ⟨owner₃, ht₃, htouch₃, horigin₃, httl⟩ :=
    copyWhen_spec ht₂ horigin₂ .ttlMillis (by decide) d.ttlMillis rfl k
  obtain ⟨owner₄, ht₄, htouch₄, horigin₄, hbinary⟩ :=
    copyWhen_spec ht₃ horigin₃ .binary (by decide) d.binary rfl k
  obtain ⟨owner₅, ht₅, htouch₅, horigin₅, htrace⟩ :=
    copyWhen_spec ht₄ horigin₄ .trace (by decide) d.trace rfl k
  have htouch₄₅ := htouch₄.trans htouch₅
  have htouch₃₅ := htouch₃.trans htouch₄₅
  have htouch₂₅ := htouch₂.trans htouch₃₅
  refine ⟨owner₅, ht₅, htouch₁.trans htouch₂₅, ?_⟩
  intro field value hroot
  cases field with
  | tags => exact (htags value hroot).touched htouch₂₅
  | sourceTimestamp => exact (hstamp value hroot).touched htouch₃₅
  | ttlMillis => exact (httl value hroot).touched htouch₄₅
  | value =>
    cases value with
    | atom a => exact .inl trivial
    | ref address =>
      obtain ⟨cell, -, -, hheld⟩ := horigin₅ .value address hroot
      exact hheld rfl k
  | binary => exact (hbinary value hroot).touched htouch₅
  | trace => exact htrace value hroot

theorem FanOut.send_spec (answers : List (Except WireError Bool)) (ht : Tidy heap owner)
    (horigin : Origin threshold heap owner d) (k : Nat) :
    let sent := FanOut.send threshold d heap answers
    ∃ owner', Tidy sent.1 owner' ∧ Touches ∅ heap owner sent.1 owner' ∧
      ∀ j copy, sent.2[j]? = some copy → HolderOk threshold sent.1 owner' (k + j) copy := by
  induction answers generalizing heap owner k with
  | nil => exact ⟨owner, ht, .refl _ _, by simp [FanOut.send]⟩
  | cons answer answers ih =>
    obtain ⟨owner₁, ht₁, htouch₁, hok₁⟩ := clone_spec ht horigin k
    cases answer with
    | error e => exact ⟨owner₁, ht₁, htouch₁, by simp [FanOut.send]⟩
    | ok delivered =>
      cases delivered with
      | false =>
        obtain ⟨owner₂, ht₂, htouch₂, hok₂⟩ := ih ht₁ (horigin.touched htouch₁) k
        exact ⟨owner₂, ht₂, htouch₁.trans htouch₂, hok₂⟩
      | true =>
        obtain ⟨owner₂, ht₂, htouch₂, hok₂⟩ := ih ht₁ (horigin.touched htouch₁) (k + 1)
        refine ⟨owner₂, ht₂, htouch₁.trans htouch₂, ?_⟩
        intro j copy hcopy
        cases j with
        | zero =>
          cases hcopy
          exact hok₁.touched htouch₂
        | succ j =>
          rw [Nat.add_comm j, ← Nat.add_assoc]
          exact hok₂ j copy hcopy

end Copies

namespace StoredDatagram

variable (threshold : Int) (m : StoredDatagram) {address : Nat}

open Classical in
noncomputable def owner (address : Nat) : Owner Nat :=
  match m.heap[address]? with
  | none => .outside
  | some (.array []) => .empty
  | some cell =>
    if ∃ field : Field, m.datagram.root field = some (.ref address) ∧
        field.copied threshold cell then .holder 0
    else .outside

variable {threshold m}

theorem owner_nil (hcell : m.heap[address]? = some (.array [])) :
    m.owner threshold address = .empty := by
  simp only [owner, hcell]

open Classical in
theorem owner_of_ne_nil (hcell : m.heap[address]? = some cell) (hne : cell ≠ .array []) :
    m.owner threshold address =
      if ∃ field : Field, m.datagram.root field = some (.ref address) ∧
          field.copied threshold cell then .holder 0
      else .outside := by
  unfold owner
  split
  next hnone =>
    rw [hnone] at hcell
    contradiction
  next hnil =>
    rw [hnil] at hcell
    exact absurd (Option.some.inj hcell).symm hne
  next found _ hfound =>
    rw [hfound] at hcell
    cases hcell
    rfl

theorem holds (hcell : m.heap[address]? = some cell)
    (hroot : m.datagram.root field = some (.ref address)) : field.Holds cell := by
  obtain ⟨found, hfound, hholds⟩ := m.typed field address hroot
  rw [hcell] at hfound
  cases hfound
  exact hholds

theorem tidy : Tidy m.heap (m.owner threshold) where
  closed := by
    intro address h cell selector value hcell howner hget
    have hne : cell ≠ .array [] := by
      rintro rfl
      rw [owner_nil hcell] at howner
      contradiction
    rw [owner_of_ne_nil hcell hne] at howner
    split at howner
    case isFalse => contradiction
    case isTrue hcopied =>
      obtain ⟨field, hroot, hfield⟩ := hcopied
      have hvalue : field ≠ .value := by
        rintro rfl
        contradiction
      obtain ⟨a, rfl⟩ := (holds hcell hroot).atomic hvalue selector value hget
      trivial
  empty := by
    intro address cell hcell howner
    by_contra hne
    rw [owner_of_ne_nil hcell hne] at howner
    split at howner <;> contradiction

theorem within_nil (hcell : m.heap[address]? = some (.array [])) (k : Nat) :
    Within m.heap (m.owner threshold) k (.ref address) :=
  ⟨(List.getElem?_eq_some_iff.mp hcell).1, .inr (owner_nil hcell)⟩

theorem frozen (hroot : m.datagram.root .binary = some (.ref address))
    (hcell : m.heap[address]? = some cell) (hne : cell ≠ .array [])
    (hlarge : Field.binary.copied threshold cell = false) :
    Frozen threshold m.heap (m.owner threshold) (.ref address) := by
  have hbytes := holds hcell hroot
  refine ⟨address, cell, rfl, ?_, hcell, hbytes.atomic (by decide), ?_⟩
  · rw [owner_of_ne_nil hcell hne, if_neg]
    rintro ⟨field, hfield, hcopied⟩
    have hholds := holds hcell hfield
    cases field <;> cases cell <;> simp only [Field.Holds] at hbytes hholds
    case trace.array items =>
      obtain ⟨item, hitem⟩ := List.exists_mem_of_ne_nil items fun h => hne (h ▸ rfl)
      obtain ⟨b, rfl⟩ := hbytes item hitem
      obtain ⟨e, he⟩ := hholds _ hitem
      cases he
    case binary.array items =>
      rw [hlarge] at hcopied
      contradiction
    case value.array items => contradiction
  · simpa [Field.copied] using hlarge

theorem origin (hinert : Inert m.heap m.datagram.value) :
    Origin threshold m.heap (m.owner threshold) m.datagram := by
  intro field address hroot
  obtain ⟨cell, hcell, hholds⟩ := m.typed field address hroot
  refine ⟨cell, hcell, hholds.atomic, ?_⟩
  intro hkept k
  by_cases hnil : cell = .array []
  · subst hnil
    exact .inl (within_nil hcell k)
  cases field with
  | tags | sourceTimestamp | ttlMillis => contradiction
  | value =>
    have hvalue : m.datagram.value = .ref address := Option.some.inj hroot
    rw [hvalue, Inert, hcell] at hinert
    exact absurd (Option.some.inj hinert) hnil
  | binary => exact .inr ⟨rfl, frozen hroot hcell hnil hkept⟩
  | trace =>
    cases cell <;> simp only [Field.Holds] at hholds
    have hzero := Nat.eq_zero_of_not_pos (of_decide_eq_false hkept)
    exact absurd (congrArg Cell.array (List.length_eq_zero_iff.mp hzero)) hnil

theorem sender (hinert : Inert m.heap m.datagram.value) :
    HolderOk threshold m.heap (m.owner threshold) 0 m.datagram := by
  intro field value hroot
  cases value with
  | atom a => exact .inl trivial
  | ref address =>
    obtain ⟨cell, hcell, -, hheld⟩ := origin hinert field address hroot
    cases hcopied : field.copied threshold cell with
    | false => exact hheld hcopied 0
    | true =>
      by_cases hnil : cell = .array []
      · subst hnil
        exact .inl (within_nil hcell 0)
      · refine .inl ⟨(List.getElem?_eq_some_iff.mp hcell).1, .inl ?_⟩
        rw [owner_of_ne_nil hcell hnil, if_pos ⟨field, hroot, hcopied⟩]

theorem apart (hinert : Inert m.heap m.datagram.value) (answers : List (Except WireError Bool)) :
    (deliver threshold m.heap m.datagram answers).Apart threshold := by
  obtain ⟨owner', ht, htouch, hok⟩ :=
    FanOut.send_spec answers (tidy (m := m)) (origin hinert) 1
  refine ⟨owner', ht, ?_⟩
  intro i d hholder
  cases i with
  | zero =>
    cases hholder
    exact (sender hinert).touched htouch
  | succ j =>
    rw [Nat.add_comm]
    exact hok j d hholder

end StoredDatagram

section Shared

variable {threshold : Int}

theorem Delivery.step_value {s : Delivery} {i address : Nat} {d : HeapDatagram} {c : Change}
    {heap : Heap Scalar} (hholder : s.holders[i]? = some d) (hvalue : d.value = .ref address)
    (hcell : s.heap[address]? = some cell)
    (hchange : change threshold s.heap d address cell c = some heap) :
    s.step threshold ⟨i, .value, [], c⟩ = some { s with heap } := by
  have hlocate : d.locate threshold s.heap .value [] = some (.ref address) := by
    simp [HeapDatagram.locate, HeapDatagram.writable, HeapDatagram.observe, HeapDatagram.root,
      follow, hvalue]
  simp only [step, hholder, hlocate, hcell, hchange, Option.map_some]

theorem StoredDatagram.shared {m : StoredDatagram} {answers : List (Except WireError Bool)}
    (haccepted : accepted answers ≠ 0) (hinert : ¬ Inert m.heap m.datagram.value) :
    ¬ (deliver threshold m.heap m.datagram answers).Independent threshold := by
  intro hindependent
  cases hvalue : m.datagram.value with
  | atom a => exact hinert (hvalue ▸ trivial)
  | ref address =>
    obtain ⟨cell, hcell, -⟩ := m.typed .value address (by rw [HeapDatagram.root, hvalue])
    have hfinal : (deliver threshold m.heap m.datagram answers).heap[address]? = some cell := by
      obtain ⟨added, hadded⟩ := FanOut.send_grows m.heap answers
      have hlt := (List.getElem?_eq_some_iff.mp hcell).1
      rw [deliver, ← hadded, List.getElem?_append_left hlt, hcell]
    have hpos : 0 < (FanOut.send threshold m.datagram m.heap answers).2.length := by
      rw [FanOut.send_length]
      omega
    obtain ⟨copy, hcopy⟩ : ∃ copy, (FanOut.send threshold m.datagram m.heap answers).2[0]? =
        some copy := ⟨_, List.getElem?_eq_getElem hpos⟩
    have hshared : copy.value = .ref address :=
      (FanOut.value_of_mem_send (List.mem_of_getElem? hcopy)).trans hvalue
    have hnonempty : ∀ items, cell = .array items → items ≠ [] := by
      rintro items rfl rfl
      rw [hvalue] at hinert
      exact hinert hcell
    obtain ⟨selector, cell', hdiffer, hchange⟩ := Cell.exists_change hnonempty
    obtain ⟨c, hc⟩ : ∃ c, Delivery.change threshold
        (deliver threshold m.heap m.datagram answers).heap copy address cell c =
        some ((deliver threshold m.heap m.datagram answers).heap.set address cell') := by
      rcases hchange with ⟨a, hput⟩ | ⟨key, hremove⟩
      · exact ⟨.put selector (.scalar a), by simp [Delivery.change, Delivery.prepare, hput]⟩
      · exact ⟨.remove key, by simp [Delivery.change, hremove]⟩
    have hstep := Delivery.step_value
      (s := deliver threshold m.heap m.datagram answers) (i := 1) hcopy hshared hfinal hc
    have hseen := hindependent [] _ _ _ rfl Nat.one_pos hstep 0 m.datagram Nat.zero_ne_one rfl
      .value [selector]
    have hlt := (List.getElem?_eq_some_iff.mp hfinal).1
    simp only [HeapDatagram.observe, HeapDatagram.root, hvalue, Option.bind_some,
      follow_singleton hfinal, follow_singleton (List.getElem?_set_self hlt)] at hseen
    exact hdiffer hseen

end Shared

/-- The copies are independent exactly when no wire takes one or there is nothing to write
in the payload value. -/
theorem fanOut_independent_iff (threshold : Int) (m : StoredDatagram)
    (answers : List (Except WireError Bool)) :
    (deliver threshold m.heap m.datagram answers).Independent threshold ↔
      accepted answers = 0 ∨ Inert m.heap m.datagram.value := by
  constructor
  · intro hindependent
    by_contra hneither
    rw [not_or] at hneither
    exact StoredDatagram.shared hneither.1 hneither.2 hindependent
  · rintro (hnone | hinert)
    · refine Delivery.independent_of_alone ?_
      rw [deliver, List.length_cons, FanOut.send_length, hnone]
    · exact (StoredDatagram.apart hinert answers).independent

def nestedReading : StoredDatagram where
  heap := [.map (AList.singleton "reading" (.ref 1)),
    .map (AList.singleton "temp" (.atom (.num "21")))]
  datagram := { value := .ref 0 }
  typed := by
    intro field address hroot
    cases field <;> simp only [HeapDatagram.root, Option.map_none, reduceCtorEq,
      Option.some.injEq, Val.ref.injEq] at hroot
    subst hroot
    exact ⟨_, rfl, trivial⟩

/-- The receiver of the first copy writes a new temperature, and that of the second reads it. -/
theorem nested_value_shared :
    ¬ ∀ (threshold : Int) (m : StoredDatagram) (answers : List (Except WireError Bool)),
      (deliver threshold m.heap m.datagram answers).Independent threshold := by
  intro h
  have hseen := h 262144 nestedReading [.ok true, .ok true] []
    (deliver 262144 nestedReading.heap nestedReading.datagram [.ok true, .ok true])
    ⟨1, .value, [.key "reading"], .put (.key "temp") (.scalar (.num "80"))⟩
    ⟨[.map (AList.singleton "reading" (.ref 1)),
      .map (AList.singleton "temp" (.atom (.num "80")))],
      [nestedReading.datagram, nestedReading.datagram, nestedReading.datagram]⟩
    rfl (by decide) rfl 2 nestedReading.datagram (by decide) rfl .value
    [.key "reading", .key "temp"]
  exact absurd hseen (by decide)

end DataPipe.Bus
