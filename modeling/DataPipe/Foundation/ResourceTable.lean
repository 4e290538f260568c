import DataPipe.Foundation.Dict

/-!
# Tables of stamped resources

A table names resources by keys.  A resource is an entry of a pool that only grows, live or
retired; each name carries the stamp it was created under.  No name is that of a retired
resource, and no two names share one.  `reconcile` brings the table in line with a list of
wanted stamps: a name whose stamp is unchanged keeps its resource, any other wanted name gets a
fresh one, and the rest are retired.
-/

namespace DataPipe.Foundation

structure ResourceTable (κ φ ω : Type) [DecidableEq κ] (Live : ω → Prop) where
  ref : AList fun _ : κ => Nat
  stamp : AList fun _ : κ => φ
  pool : List ω
  live : ∀ {key r}, ref.lookup key = some r → ∃ w, pool[r]? = some w ∧ Live w
  unshared : ∀ {key other r}, ref.lookup key = some r → ref.lookup other = some r → key = other
  mem_iff : ∀ {key}, key ∈ ref ↔ key ∈ stamp

namespace ResourceTable

variable {κ φ ω : Type} [DecidableEq κ] {Live : ω → Prop}

def empty (pool : List ω) : ResourceTable κ φ ω Live where
  ref := ∅
  stamp := ∅
  pool := pool
  live := by simp
  unshared := by simp
  mem_iff := by simp

variable {t : ResourceTable κ φ ω Live} {key other : κ} {retire : ω → ω} {wanted : List (κ × φ)}
variable {r : Nat}

theorem ref_lt (h : t.ref.lookup key = some r) : r < t.pool.length := by
  obtain ⟨w, hw, _⟩ := t.live h
  exact (List.getElem?_eq_some_iff.mp hw).1

def retired (t : ResourceTable κ φ ω Live) (retire : ω → ω) (key : κ) : List ω :=
  match t.ref.lookup key with
  | some r => t.pool.modify r retire
  | none => t.pool

@[simp] theorem length_retired (t : ResourceTable κ φ ω Live) (retire : ω → ω)
    (key : κ) : (t.retired retire key).length = t.pool.length := by
  unfold retired
  split <;> simp

theorem getElem?_retired (hne : other ≠ key) (h : t.ref.lookup other = some r) :
    (t.retired retire key)[r]? = t.pool[r]? := by
  unfold retired
  split
  case h_1 q hq =>
    have hqr : q ≠ r := by
      intro heq
      subst heq
      exact hne (t.unshared h hq)
    simp [hqr]
  case h_2 => rfl

def drop (t : ResourceTable κ φ ω Live) (retire : ω → ω) (key : κ) : ResourceTable κ φ ω Live where
  ref := t.ref.erase key
  stamp := t.stamp.erase key
  pool := t.retired retire key
  live := by
    intro other r h
    obtain ⟨hne, hold⟩ := lookup_erase_eq_some h
    rw [getElem?_retired hne hold]
    exact t.live hold
  unshared := by
    intro a b r ha hb
    exact t.unshared (lookup_erase_eq_some ha).2 (lookup_erase_eq_some hb).2
  mem_iff := by
    intro other
    rw [AList.mem_erase, AList.mem_erase, t.mem_iff]

def replace (t : ResourceTable κ φ ω Live) (retire : ω → ω) (key : κ) (stamp : φ)
    (fresh : { w // Live w }) : ResourceTable κ φ ω Live where
  ref := t.ref.insert key t.pool.length
  stamp := t.stamp.insert key stamp
  pool := t.retired retire key ++ [fresh.1]
  live := by
    intro other r h
    by_cases heq : other = key
    · subst heq
      rw [AList.lookup_insert] at h
      cases h
      exact ⟨fresh.1, by simp, fresh.2⟩
    · rw [AList.lookup_insert_ne heq] at h
      rw [List.getElem?_append_left (by simpa using ref_lt h), getElem?_retired heq h]
      exact t.live h
  unshared := by
    refine lookup_insert_injective (fun _ _ _ => t.unshared) ?_
    exact fun _ h => absurd (ref_lt h) (Nat.lt_irrefl _)
  mem_iff := by
    intro other
    rw [AList.mem_insert, AList.mem_insert, t.mem_iff]

def update (t : ResourceTable κ φ ω Live) (r : Nat) (change : ω → ω)
    (hchange : ∀ w, Live w → Live (change w)) : ResourceTable κ φ ω Live where
  ref := t.ref
  stamp := t.stamp
  pool := t.pool.modify r change
  live := by
    intro key q h
    obtain ⟨w, hw, hlive⟩ := t.live h
    by_cases hrq : r = q
    · subst hrq
      exact ⟨change w, by simp [hw], hchange w hlive⟩
    · exact ⟨w, by simp [hrq, hw], hlive⟩
  unshared := t.unshared
  mem_iff := t.mem_iff

structure Keeps (t u : ResourceTable κ φ ω Live) (key : κ) : Prop where
  ref : u.ref.lookup key = t.ref.lookup key
  stamp : u.stamp.lookup key = t.stamp.lookup key
  pool : ∀ r, t.ref.lookup key = some r → u.pool[r]? = t.pool[r]?

theorem Keeps.refl (t : ResourceTable κ φ ω Live) (key : κ) : t.Keeps t key :=
  ⟨rfl, rfl, fun _ _ => rfl⟩

theorem Keeps.trans {u v : ResourceTable κ φ ω Live} (h : t.Keeps u key) (h' : u.Keeps v key) :
    t.Keeps v key where
  ref := h'.ref.trans h.ref
  stamp := h'.stamp.trans h.stamp
  pool := by
    intro r hr
    rw [h'.pool r (h.ref.trans hr), h.pool r hr]

theorem keeps_drop (hne : other ≠ key) : t.Keeps (t.drop retire key) other where
  ref := AList.lookup_erase_ne hne
  stamp := AList.lookup_erase_ne hne
  pool := fun _ hr => getElem?_retired hne hr

theorem keeps_replace {stamp : φ} {fresh : { w // Live w }} (hne : other ≠ key) :
    t.Keeps (t.replace retire key stamp fresh) other where
  ref := AList.lookup_insert_ne hne
  stamp := AList.lookup_insert_ne hne
  pool := by
    intro r hr
    change (t.retired retire key ++ [fresh.1])[r]? = _
    rw [List.getElem?_append_left (by simpa using ref_lt hr), getElem?_retired hne hr]

def Consistent (wanted : List (κ × φ)) : Prop :=
  ∀ key a b, (key, a) ∈ wanted → (key, b) ∈ wanted → a = b

omit [DecidableEq κ] in
theorem Consistent.tail {head : κ × φ} (h : Consistent (head :: wanted)) : Consistent wanted :=
  fun key a b ha hb => h key a b (List.mem_cons_of_mem _ ha) (List.mem_cons_of_mem _ hb)

section Reconcile

variable (retire : ω → ω) (make : κ → { w // Live w })

def stale (t : ResourceTable κ φ ω Live) (wanted : List (κ × φ)) : List κ :=
  t.ref.keys.filter (· ∉ wanted.map Prod.fst)

def dropAll (t : ResourceTable κ φ ω Live) (keys : List κ) : ResourceTable κ φ ω Live :=
  keys.foldl (fun t key => t.drop retire key) t

variable {stamp : φ} {keys : List κ}

theorem keeps_dropAll (h : key ∉ keys) : t.Keeps (t.dropAll retire keys) key := by
  induction keys generalizing t with
  | nil => exact .refl t key
  | cons head keys ih =>
    rw [List.mem_cons, not_or] at h
    exact (keeps_drop h.1).trans (ih h.2)

theorem stamp_dropAll (h : key ∈ keys) : (t.dropAll retire keys).stamp.lookup key = none := by
  induction keys generalizing t with
  | nil => contradiction
  | cons head keys ih =>
    by_cases hkey : key ∈ keys
    · exact ih hkey
    · have heq : key = head := by simpa [hkey] using h
      have hkeep := keeps_dropAll retire (t := t.drop retire head) hkey
      rw [heq] at hkeep ⊢
      exact hkeep.stamp.trans (AList.lookup_erase _ _)

theorem length_pool_dropAll (t : ResourceTable κ φ ω Live) (keys : List κ) :
    (t.dropAll retire keys).pool.length = t.pool.length := by
  induction keys generalizing t with
  | nil => rfl
  | cons head keys ih => exact (ih _).trans (length_retired t retire head)

theorem keeps_dropAll_stale (h : (key, stamp) ∈ wanted) :
    t.Keeps (t.dropAll retire (t.stale wanted)) key := by
  apply keeps_dropAll
  intro hstale
  have hnot := (List.mem_filter.mp hstale).2
  exact of_decide_eq_true hnot (List.mem_map_of_mem h)

variable [DecidableEq φ]

def reconcileOne (t : ResourceTable κ φ ω Live) (wanted : κ × φ) : ResourceTable κ φ ω Live :=
  if t.stamp.lookup wanted.1 = some wanted.2 then t
  else t.replace retire wanted.1 wanted.2 (make wanted.1)

def reconcileAll (t : ResourceTable κ φ ω Live) (wanted : List (κ × φ)) :
    ResourceTable κ φ ω Live :=
  wanted.foldl (reconcileOne retire make) t

def reconcile (t : ResourceTable κ φ ω Live) (wanted : List (κ × φ)) : ResourceTable κ φ ω Live :=
  (t.dropAll retire (t.stale wanted)).reconcileAll retire make wanted

theorem stamp_reconcileOne (t : ResourceTable κ φ ω Live) (wanted : κ × φ) :
    (t.reconcileOne retire make wanted).stamp.lookup wanted.1 = some wanted.2 := by
  unfold reconcileOne
  split
  case isTrue h => exact h
  case isFalse => exact AList.lookup_insert _

theorem length_pool_reconcileOne (t : ResourceTable κ φ ω Live) (wanted : κ × φ) :
    t.pool.length ≤ (t.reconcileOne retire make wanted).pool.length := by
  unfold reconcileOne
  split
  case isTrue => exact Nat.le_refl _
  case isFalse => simp [replace]

theorem keeps_reconcileOne {wanted : κ × φ}
    (h : key = wanted.1 → t.stamp.lookup key = some wanted.2) :
    t.Keeps (t.reconcileOne retire make wanted) key := by
  unfold reconcileOne
  split
  case isTrue => exact .refl t key
  case isFalse hne =>
    apply keeps_replace
    intro heq
    exact hne (heq ▸ h heq)

theorem keeps_reconcileAll (t : ResourceTable κ φ ω Live)
    (h : ∀ stamp, (key, stamp) ∈ wanted → t.stamp.lookup key = some stamp) :
    t.Keeps (t.reconcileAll retire make wanted) key := by
  induction wanted generalizing t with
  | nil => exact .refl t key
  | cons head wanted ih =>
    have hhead : t.Keeps (t.reconcileOne retire make head) key := by
      apply keeps_reconcileOne
      rintro rfl
      exact h head.2 List.mem_cons_self
    refine hhead.trans (ih _ ?_)
    intro stamp hmem
    rw [hhead.stamp]
    exact h stamp (List.mem_cons_of_mem _ hmem)

theorem stamp_reconcileAll (t : ResourceTable κ φ ω Live) (hcons : Consistent wanted)
    (h : (key, stamp) ∈ wanted) :
    (t.reconcileAll retire make wanted).stamp.lookup key = some stamp := by
  induction wanted generalizing t with
  | nil => contradiction
  | cons head wanted ih =>
    by_cases hlater : ∃ later, (key, later) ∈ wanted
    · obtain ⟨later, hlater⟩ := hlater
      have heq := hcons key stamp later h (List.mem_cons_of_mem _ hlater)
      exact ih _ hcons.tail (heq ▸ hlater)
    · have heq : head = (key, stamp) := by
        rcases List.mem_cons.mp h with h | h
        · exact h.symm
        · exact absurd ⟨stamp, h⟩ hlater
      subst heq
      have hkeep := keeps_reconcileAll retire make
        (t.reconcileOne retire make (key, stamp))
        (fun later hmem => absurd ⟨later, hmem⟩ hlater)
      exact hkeep.stamp.trans (stamp_reconcileOne retire make t (key, stamp))

theorem fresh_reconcileAll (t : ResourceTable κ φ ω Live) (hcons : Consistent wanted)
    (h : (key, stamp) ∈ wanted) (hold : t.stamp.lookup key ≠ some stamp) :
    ∃ r, (t.reconcileAll retire make wanted).ref.lookup key = some r ∧
      t.pool.length ≤ r ∧
      (t.reconcileAll retire make wanted).pool[r]? = some (make key).1 := by
  induction wanted generalizing t with
  | nil => contradiction
  | cons head wanted ih =>
    by_cases hkey : key = head.1
    · have hhead : head.2 = stamp :=
        hcons key _ _ (hkey ▸ List.mem_cons_self) h
      have hrest : (t.reconcileOne retire make head).Keeps
          (t.reconcileAll retire make (head :: wanted)) key := by
        apply keeps_reconcileAll
        intro later hmem
        rw [hkey, stamp_reconcileOne, hhead]
        exact congrArg some (hcons key _ _ h (List.mem_cons_of_mem _ hmem))
      have hone : t.reconcileOne retire make head =
          t.replace retire head.1 head.2 (make head.1) := by
        rw [reconcileOne, if_neg]
        rw [hhead, ← hkey]
        exact hold
      have href : (t.reconcileOne retire make head).ref.lookup key = some t.pool.length := by
        rw [hone, hkey]
        exact AList.lookup_insert _
      refine ⟨t.pool.length, hrest.ref.trans href, Nat.le_refl _, ?_⟩
      refine (hrest.pool _ href).trans ?_
      rw [hone, hkey]
      simp [replace]
    · have hmem : (key, stamp) ∈ wanted := by
        rcases List.mem_cons.mp h with rfl | hmem
        · exact absurd rfl hkey
        · exact hmem
      have hhead : t.Keeps (t.reconcileOne retire make head) key :=
        keeps_reconcileOne retire make (fun heq => absurd heq hkey)
      obtain ⟨r, href, hle, hpool⟩ := ih (t.reconcileOne retire make head)
        hcons.tail hmem (hhead.stamp ▸ hold)
      exact ⟨r, href, Nat.le_trans (length_pool_reconcileOne retire make t head) hle, hpool⟩

theorem keeps_reconcile (hcons : Consistent wanted) (h : (key, stamp) ∈ wanted)
    (hstamp : t.stamp.lookup key = some stamp) : t.Keeps (t.reconcile retire make wanted) key := by
  have hdrop := keeps_dropAll_stale retire (t := t) h
  refine hdrop.trans (keeps_reconcileAll retire make _ ?_)
  intro later hlater
  rw [hdrop.stamp, hstamp, hcons key stamp later h hlater]

theorem fresh_reconcile (hcons : Consistent wanted) (h : (key, stamp) ∈ wanted)
    (hstamp : t.stamp.lookup key ≠ some stamp) :
    ∃ r, (t.reconcile retire make wanted).ref.lookup key = some r ∧
      t.pool.length ≤ r ∧
      (t.reconcile retire make wanted).pool[r]? = some (make key).1 := by
  have hdrop := keeps_dropAll_stale retire (t := t) h
  have hfresh := fresh_reconcileAll retire make _ hcons h (hdrop.stamp ▸ hstamp)
  rw [length_pool_dropAll] at hfresh
  exact hfresh

theorem stamp_reconcile (hcons : Consistent wanted) (key : κ) (stamp : φ) :
    (t.reconcile retire make wanted).stamp.lookup key = some stamp ↔
      (key, stamp) ∈ wanted := by
  constructor
  · intro h
    by_cases hwanted : ∃ later, (key, later) ∈ wanted
    · obtain ⟨later, hlater⟩ := hwanted
      have hnew : (t.reconcile retire make wanted).stamp.lookup key = some later :=
        stamp_reconcileAll retire make _ hcons hlater
      rw [h] at hnew
      cases hnew
      exact hlater
    · have hkeep := keeps_reconcileAll retire make
        (t.dropAll retire (t.stale wanted)) (fun later hmem => absurd ⟨later, hmem⟩ hwanted)
      have hkept := hkeep.stamp.symm.trans h
      by_cases hmem : key ∈ t.stale wanted
      · rw [stamp_dropAll retire hmem] at hkept
        contradiction
      · rw [(keeps_dropAll retire hmem).stamp] at hkept
        refine absurd (List.mem_filter.mpr ⟨?_, ?_⟩) hmem
        · rw [← AList.mem_keys, t.mem_iff, ← AList.lookup_isSome, hkept]
          rfl
        · apply decide_eq_true
          rintro hfst
          obtain ⟨⟨_, later⟩, hlater, rfl⟩ := List.mem_map.mp hfst
          exact hwanted ⟨later, hlater⟩
  · exact stamp_reconcileAll retire make _ hcons

theorem keeps_reconcile_iff (hcons : Consistent wanted) :
    (∀ key, t.Keeps (t.reconcile retire make wanted) key) ↔
      ∀ key stamp, t.stamp.lookup key = some stamp ↔ (key, stamp) ∈ wanted := by
  constructor
  · intro hkeeps key stamp
    rw [← (hkeeps key).stamp, stamp_reconcile retire make hcons]
  · intro hstamps key
    cases hstamp : t.stamp.lookup key with
    | some stamp => exact keeps_reconcile retire make hcons ((hstamps key stamp).mp hstamp) hstamp
    | none =>
      have hunwanted : ∀ stamp, (key, stamp) ∉ wanted := by
        intro stamp hmem
        rw [← hstamps, hstamp] at hmem
        cases hmem
      have hfresh : key ∉ t.stale wanted := by
        intro hstale
        have hmem := t.mem_iff.mp (AList.mem_keys.mpr (List.mem_filter.mp hstale).1)
        exact AList.lookup_eq_none.mp hstamp hmem
      refine (keeps_dropAll retire hfresh).trans (keeps_reconcileAll retire make _ ?_)
      exact fun stamp hmem => absurd hmem (hunwanted stamp)

end Reconcile

end ResourceTable

end DataPipe.Foundation
