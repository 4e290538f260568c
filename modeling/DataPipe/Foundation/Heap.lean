import DataPipe.Foundation.Dict
import DataPipe.Foundation.Threads

/-!
# Heaps of maps, arrays and boxes

A value is an atom or the address of a cell.  Cells are read and written through
selectors, and a path of selectors follows addresses from a value.  A labelling
of the addresses by owners that is closed under references keeps the owners
apart: what one of them writes, the others do not see.
-/

namespace DataPipe.Foundation

variable {Atom Holder : Type} {address : Nat}

inductive Val (Atom : Type) where
  | atom (a : Atom)
  | ref (address : Nat)
  deriving DecidableEq

inductive Cell (Atom : Type) where
  | map (entries : AList fun _ : String => Val Atom)
  | array (items : List (Val Atom))
  | box (value : Val Atom)

inductive Selector where
  | key (key : String)
  | index (i : Nat)
  | target
  deriving DecidableEq, Repr

abbrev Heap (Atom : Type) := List (Cell Atom)

namespace Cell

def get : Cell Atom → Selector → Option (Val Atom)
  | .map entries, .key key => entries.lookup key
  | .array items, .index i => items[i]?
  | .box value, .target => some value
  | _, _ => none

def put : Cell Atom → Selector → Val Atom → Option (Cell Atom)
  | .map entries, .key key, value => some (.map (entries.insert key value))
  | .array items, .index i, value =>
    if i < items.length then some (.array (items.set i value)) else none
  | .box _, .target, value => some (.box value)
  | _, _, _ => none

def remove : Cell Atom → String → Option (Cell Atom)
  | .map entries, key => some (.map (entries.erase key))
  | _, _ => none

def size : Cell Atom → Nat
  | .map entries => entries.entries.length
  | .array items => items.length
  | .box _ => 1

def Atomic (cell : Cell Atom) : Prop :=
  ∀ selector value, cell.get selector = some value → ∃ a, value = .atom a

theorem atomic_box (a : Atom) : (box (.atom a)).Atomic := by
  intro selector value hget
  cases selector <;> simp only [get, reduceCtorEq] at hget
  exact ⟨a, (Option.some.inj hget).symm⟩

theorem atomic_array {items : List (Val Atom)} (h : ∀ item ∈ items, ∃ a, item = .atom a) :
    (array items).Atomic := by
  intro selector value hget
  cases selector <;> simp only [get, reduceCtorEq] at hget
  exact h value (List.mem_of_getElem? hget)

variable {cell cell' : Cell Atom} {other : Selector} {found : Val Atom}

theorem get_of_put {selector : Selector} {value : Val Atom}
    (hput : cell.put selector value = some cell') (hget : cell'.get other = some found) :
    found = value ∨ cell.get other = some found := by
  revert hput
  fun_cases put cell selector value <;> rintro ⟨⟩ <;> cases other <;>
    simp only [get, reduceCtorEq] at hget ⊢
  case case1.key entries key other => exact (lookup_insert_eq_some hget).imp (fun h => h.2.symm) id
  case case2.index items i hi other => exact (getElem?_set_eq_some hget).imp And.right And.right
  case case4.target => exact .inl (Option.some.inj hget).symm

theorem get_of_remove {key : String} (hremove : cell.remove key = some cell')
    (hget : cell'.get other = some found) : cell.get other = some found := by
  cases cell <;> simp only [remove, reduceCtorEq, Option.some.injEq] at hremove
  subst hremove
  cases other <;> simp only [get, reduceCtorEq] at hget ⊢
  exact (lookup_erase_eq_some hget).2

theorem exists_change [Nontrivial Atom] (h : ∀ items, cell = .array items → items ≠ []) :
    ∃ selector cell', cell'.get selector ≠ cell.get selector ∧
      ((∃ a, cell.put selector (.atom a) = some cell') ∨
        ∃ key, cell.remove key = some cell') := by
  obtain ⟨a, b, hab⟩ := exists_pair_ne Atom
  cases cell with
  | map entries =>
    by_cases hmem : "" ∈ entries
    · refine ⟨.key "", .map (entries.erase ""), ?_, .inr ⟨"", rfl⟩⟩
      simp only [get, AList.lookup_erase]
      intro hnone
      exact AList.lookup_eq_none.mp hnone.symm hmem
    · refine ⟨.key "", .map (entries.insert "" (.atom a)), ?_, .inl ⟨a, rfl⟩⟩
      simp [get, AList.lookup_eq_none.mpr hmem]
  | array items =>
    have hpos := List.length_pos_iff.mpr (h items rfl)
    by_cases ha : items[0]? = some (.atom a)
    · refine ⟨.index 0, .array (items.set 0 (.atom b)), ?_, .inl ⟨b, by simp [put, hpos]⟩⟩
      simp only [get, ha, List.getElem?_set_self hpos]
      simp [hab.symm]
    · refine ⟨.index 0, .array (items.set 0 (.atom a)), ?_, .inl ⟨a, by simp [put, hpos]⟩⟩
      simp only [get, List.getElem?_set_self hpos]
      exact fun h => ha h.symm
  | box value =>
    by_cases ha : value = .atom a
    · refine ⟨.target, .box (.atom b), ?_, .inl ⟨b, rfl⟩⟩
      simp [get, ha, hab.symm]
    · refine ⟨.target, .box (.atom a), ?_, .inl ⟨a, rfl⟩⟩
      simp only [get, ne_eq, Option.some.injEq]
      exact fun h => ha h.symm

end Cell

def follow (heap : Heap Atom) : Val Atom → List Selector → Option (Val Atom)
  | value, [] => some value
  | .atom _, _ :: _ => none
  | .ref address, selector :: path =>
    match heap[address]? with
    | none => none
    | some cell =>
      match cell.get selector with
      | none => none
      | some next => follow heap next path

variable {cell : Cell Atom}

theorem follow_singleton {heap : Heap Atom} (hcell : heap[address]? = some cell)
    (selector : Selector) : follow heap (.ref address) [selector] = cell.get selector := by
  simp only [follow, hcell]
  cases cell.get selector <;> rfl

inductive Owner (Holder : Type) where
  | holder (h : Holder)
  | empty
  | outside

def Within (heap : Heap Atom) (owner : Nat → Owner Holder) (h : Holder) : Val Atom → Prop
  | .atom _ => True
  | .ref address => address < heap.length ∧ (owner address = .holder h ∨ owner address = .empty)

structure Tidy (heap : Heap Atom) (owner : Nat → Owner Holder) : Prop where
  closed : ∀ address h cell selector value, heap[address]? = some cell →
    owner address = .holder h → cell.get selector = some value → Within heap owner h value
  empty : ∀ address cell, heap[address]? = some cell → owner address = .empty → cell = .array []

variable {heap heap' : Heap Atom} {owner owner' : Nat → Owner Holder} {h : Holder}
variable {value : Val Atom}

theorem Tidy.next (ht : Tidy heap owner) {selector : Selector}
    (hwithin : Within heap owner h (.ref address)) (hcell : heap[address]? = some cell)
    (hget : cell.get selector = some value) : Within heap owner h value := by
  rcases hwithin.2 with howner | howner
  · exact ht.closed address h cell selector value hcell howner hget
  · rw [ht.empty address cell hcell howner] at hget
    cases selector <;> simp [Cell.get] at hget

theorem Tidy.within_follow (ht : Tidy heap owner) {path : List Selector} {found : Val Atom}
    (hwithin : Within heap owner h value) (hfollow : follow heap value path = some found) :
    Within heap owner h found := by
  induction path generalizing value with
  | nil =>
    cases hfollow
    exact hwithin
  | cons selector path ih =>
    cases value with
    | atom a => contradiction
    | ref address =>
      simp only [follow] at hfollow
      split at hfollow <;> try contradiction
      next cell hcell =>
      split at hfollow <;> try contradiction
      next next hnext => exact ih (ht.next hwithin hcell hnext) hfollow

theorem Tidy.follow_eq (ht : Tidy heap owner)
    (hsame : ∀ address, Within heap owner h (.ref address) → heap'[address]? = heap[address]?)
    (hwithin : Within heap owner h value) (path : List Selector) :
    follow heap' value path = follow heap value path := by
  induction path generalizing value with
  | nil => rfl
  | cons selector path ih =>
    cases value with
    | atom a => rfl
    | ref address =>
      simp only [follow, hsame address hwithin]
      cases hcell : heap[address]? with
      | none => rfl
      | some cell =>
        dsimp only
        cases hget : cell.get selector with
        | none => rfl
        | some next => exact ih (ht.next hwithin hcell hget)

/-- Cells are added, the owners of the old cells stay, and of the old cells only those
of the writers change. -/
structure Touches (writers : Set Holder) (heap : Heap Atom) (owner : Nat → Owner Holder)
    (heap' : Heap Atom) (owner' : Nat → Owner Holder) : Prop where
  length : heap.length ≤ heap'.length
  owners : ∀ address < heap.length, owner' address = owner address
  cells : ∀ address < heap.length, (∀ h ∈ writers, owner address ≠ .holder h) →
    heap'[address]? = heap[address]?

namespace Touches

variable {writers : Set Holder}

theorem refl (heap : Heap Atom) (owner : Nat → Owner Holder) :
    Touches writers heap owner heap owner :=
  ⟨Nat.le_refl _, fun _ _ => rfl, fun _ _ _ => rfl⟩

theorem trans {heap₃ : Heap Atom} {owner₃ : Nat → Owner Holder}
    (h₁ : Touches writers heap owner heap' owner')
    (h₂ : Touches writers heap' owner' heap₃ owner₃) :
    Touches writers heap owner heap₃ owner₃ where
  length := h₁.length.trans h₂.length
  owners := fun address hlt =>
    (h₂.owners address (hlt.trans_le h₁.length)).trans (h₁.owners address hlt)
  cells := by
    intro address hlt hforeign
    have hforeign' : ∀ h ∈ writers, owner' address ≠ .holder h := by
      rw [h₁.owners address hlt]
      exact hforeign
    rw [h₂.cells address (hlt.trans_le h₁.length) hforeign', h₁.cells address hlt hforeign]

theorem of_empty (h : Touches ∅ heap owner heap' owner') :
    Touches writers heap owner heap' owner' :=
  ⟨h.length, h.owners, fun address hlt _ => h.cells address hlt fun _ => False.elim⟩

theorem alloc (heap : Heap Atom) (owner : Nat → Owner Holder) (cell : Cell Atom)
    (o : Owner Holder) :
    Touches ∅ heap owner (heap ++ [cell]) (Function.update owner heap.length o) where
  length := by simp
  owners := fun _ hlt => Function.update_of_ne (Nat.ne_of_lt hlt) _ _
  cells := fun _ hlt _ => List.getElem?_append_left hlt

theorem set (howner : owner address = .holder h) (cell : Cell Atom) :
    Touches {h} heap owner (heap.set address cell) owner where
  length := by simp
  owners := fun _ _ => rfl
  cells := by
    intro other _ hforeign
    refine List.getElem?_set_ne ?_
    rintro rfl
    exact hforeign h rfl howner

theorem getElem?_eq (ht : Touches writers heap owner heap' owner') {cell : Cell Atom}
    (hforeign : ∀ h ∈ writers, owner address ≠ .holder h) (hcell : heap[address]? = some cell) :
    heap'[address]? = some cell := by
  rw [ht.cells address (List.getElem?_eq_some_iff.mp hcell).1 hforeign, hcell]

variable {value : Val Atom}

theorem within (ht : Touches writers heap owner heap' owner')
    (hwithin : Within heap owner h value) : Within heap' owner' h value := by
  cases value with
  | atom a => trivial
  | ref address =>
    refine ⟨hwithin.1.trans_le ht.length, ?_⟩
    rw [ht.owners address hwithin.1]
    exact hwithin.2

theorem follow_eq (htouch : Touches writers heap owner heap' owner') (ht : Tidy heap owner)
    (hother : h ∉ writers) (hwithin : Within heap owner h value) (path : List Selector) :
    follow heap' value path = follow heap value path := by
  refine ht.follow_eq ?_ hwithin path
  intro address haddress
  refine htouch.cells address haddress.1 ?_
  intro writer hwriter howner
  rcases haddress.2 with hown | hempty
  · rw [hown, Owner.holder.injEq] at howner
    exact hother (howner ▸ hwriter)
  · rw [hempty] at howner
    contradiction

end Touches

theorem Tidy.set (ht : Tidy heap owner) (howner : owner address = .holder h)
    (hvalues : ∀ selector value, cell.get selector = some value → Within heap owner h value) :
    Tidy (heap.set address cell) owner where
  closed := by
    intro r h' found selector value hfound howner' hget
    refine (Touches.set howner cell).within ?_
    rcases getElem?_set_eq_some hfound with ⟨rfl, rfl⟩ | ⟨-, hold⟩
    · rw [howner, Owner.holder.injEq] at howner'
      exact howner' ▸ hvalues selector value hget
    · exact ht.closed r h' found selector value hold howner' hget
  empty := by
    intro r found hfound howner'
    rcases getElem?_set_eq_some hfound with ⟨rfl, rfl⟩ | ⟨-, hold⟩
    · rw [howner] at howner'
      contradiction
    · exact ht.empty r found hold howner'

theorem Tidy.alloc (ht : Tidy heap owner) (h : Holder) (hatomic : cell.Atomic) :
    Tidy (heap ++ [cell]) (Function.update owner heap.length (.holder h)) where
  closed := by
    intro r h' found selector value hfound howner hget
    rcases getElem?_concat_eq_some hfound with hold | ⟨-, rfl⟩
    · have hlt := (List.getElem?_eq_some_iff.mp hold).1
      rw [Function.update_of_ne (Nat.ne_of_lt hlt)] at howner
      exact (Touches.alloc heap owner cell _).within
        (ht.closed r h' found selector value hold howner hget)
    · obtain ⟨a, rfl⟩ := hatomic selector value hget
      trivial
  empty := by
    intro r found hfound howner
    rcases getElem?_concat_eq_some hfound with hold | ⟨rfl, rfl⟩
    · have hlt := (List.getElem?_eq_some_iff.mp hold).1
      rw [Function.update_of_ne (Nat.ne_of_lt hlt)] at howner
      exact ht.empty r found hold howner
    · rw [Function.update_self] at howner
      contradiction

end DataPipe.Foundation
