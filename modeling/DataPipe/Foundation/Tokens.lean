import DataPipe.Foundation.Threads

/-!
# Tokens and their producers

Work in flight as a list of tokens.  A token belongs to a group, is live or spent, and names
the token that produced it until that one has accounted for it.  The tokens without a producer
are the counted ones: a counter per group, raised when a producer accounts for its products and
lowered when a counted token is spent, stays equal to their number and is zero only when no
token of the group is live.
-/

namespace DataPipe.Foundation

structure Token (γ : Type*) where
  group : γ
  producer : Option Nat
  live : Bool

namespace Token

variable {γ : Type*} {t : Token γ} {i : Nat}

def counted (t : Token γ) : Option γ :=
  if t.live ∧ t.producer = none then some t.group else none

def producedBy (t : Token γ) : Option Nat :=
  if t.live then t.producer else none

def settle (i : Nat) (t : Token γ) : Token γ :=
  if t.producer = some i then { t with producer := none } else t

variable {j : Nat}

theorem producer_settle_eq_some (h : (t.settle i).producer = some j) :
    t.producer = some j ∧ j ≠ i := by
  unfold settle at h
  split at h
  case isTrue => contradiction
  case isFalse hne =>
    refine ⟨h, ?_⟩
    rintro rfl
    exact hne h

def Rooted (tokens : List (Token γ)) : Prop :=
  ∀ (i : Nat) (t : Token γ) (j : Nat), tokens[i]? = some t → t.live = true → t.producer = some j →
    j < i ∧ ∃ p : Token γ, tokens[j]? = some p ∧ p.live = true ∧ p.group = t.group

variable {tokens : List (Token γ)}

theorem Rooted.exists_counted (h : Rooted tokens) (ht : tokens[i]? = some t)
    (hlive : t.live = true) : ∃ root ∈ tokens, root.counted = some t.group := by
  induction i using Nat.strongRecOn generalizing t with
  | ind i ih =>
    cases hproducer : t.producer with
    | none =>
      refine ⟨t, List.mem_of_getElem? ht, ?_⟩
      simp [counted, hlive, hproducer]
    | some j =>
      obtain ⟨hlt, p, hp, hplive, hgroup⟩ := h i t j ht hlive hproducer
      obtain ⟨root, hroot, hcounted⟩ := ih j hlt hp hplive
      exact ⟨root, hroot, hgroup ▸ hcounted⟩

variable [DecidableEq γ]

theorem Rooted.spent_of_tally_eq_zero (h : Rooted tokens) {group : γ}
    (hzero : tally counted tokens group = 0) (ht : tokens[i]? = some t) (hgroup : t.group = group) :
    t.live = false := by
  by_contra hlive
  have hlive : t.live = true := by simpa using hlive
  obtain ⟨root, hroot, hcounted⟩ := h.exists_counted ht hlive
  have hpos := tally_pos_iff.mpr ⟨root, hroot, hgroup ▸ hcounted⟩
  omega

omit [DecidableEq γ] in
theorem tally_producedBy_settle_ne (tokens : List (Token γ)) (hne : j ≠ i) :
    tally producedBy (tokens.map (settle i)) j = tally producedBy tokens j := by
  induction tokens with
  | nil => rfl
  | cons t tokens ih =>
    have hhead : ownCount producedBy j (t.settle i) = ownCount producedBy j t := by
      by_cases hproducer : t.producer = some i
      · simp [ownCount, producedBy, settle, hproducer, Ne.symm hne]
      · simp [settle, hproducer]
    rw [List.map_cons, tally_cons, tally_cons, hhead, ih]

theorem tally_counted_settle (tokens : List (Token γ)) (i : Nat) (group : γ)
    (hgroup : ∀ t ∈ tokens, t.producedBy = some i → t.group = group) (other : γ) :
    tally counted (tokens.map (settle i)) other =
      tally counted tokens other +
        if other = group then tally producedBy tokens i else 0 := by
  induction tokens with
  | nil => simp [tally]
  | cons t tokens ih =>
    have hrest := ih fun u hu => hgroup u (List.mem_cons_of_mem _ hu)
    have hhead : ownCount counted other (t.settle i) =
        ownCount counted other t +
          if other = group then ownCount producedBy i t else 0 := by
      have hown := hgroup t List.mem_cons_self
      by_cases hproducer : t.producer = some i
      · cases hlive : t.live with
        | false => simp [ownCount, counted, producedBy, settle, hproducer, hlive]
        | true =>
          have heq : t.group = group := hown (by simp [producedBy, hlive, hproducer])
          by_cases hother : other = group
          · simp [ownCount, counted, producedBy, settle, hproducer, heq, hother]
          · simp [ownCount, counted, settle, hproducer, heq, hother, Ne.symm hother]
      · have hsame : t.settle i = t := by simp [settle, hproducer]
        have hnone : ownCount producedBy i t = 0 := by simp [ownCount, producedBy, hproducer]
        rw [hsame, hnone]
        simp
    rw [List.map_cons, tally_cons, tally_cons, tally_cons, hhead, hrest]
    split <;> omega

end Token

end DataPipe.Foundation
