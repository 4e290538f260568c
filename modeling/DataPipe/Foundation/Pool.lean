import Mathlib.Data.List.Basic

/-!
# Calls on a connection pool

A call is what one goroutine does with the connections of a pool and with the database behind
them.  An access answers `none` when the database fails.  `exec` runs a call on a pool of which
it is the only user that still holds something: the others give their connections back, and
what they did to the database meanwhile is part of the script.  A call that asks for a
connection while it holds all of them waits for ever.
-/

namespace DataPipe.Foundation

inductive Call (σ α : Type) : Type 1 where
  | done (result : α)
  | acquire (rest : Call σ α)
  | release (rest : Call σ α)
  | access {β : Type} (effect : σ → β × σ) (rest : Option β → Call σ α)

structure Script (σ : Type) where
  fails : Nat → Bool
  others : Nat → σ → σ

/-- None of the accesses `n`, ..., `n + i` fails. -/
def Script.Reaches {σ : Type} (script : Script σ) (n i : Nat) : Prop :=
  ∀ j ≤ i, script.fails (n + j) = false

/-- Where a call has got to: the accesses made, the connections held and the database. -/
structure Progress (σ : Type) where
  accesses : Nat := 0
  held : Nat := 0
  db : σ

theorem Script.reaches_succ {σ : Type} (script : Script σ) (n i : Nat) :
    script.Reaches n (i + 1) ↔ script.fails n = false ∧ script.Reaches (n + 1) i := by
  constructor
  · intro h
    refine ⟨h 0 (Nat.zero_le _), fun j hj => ?_⟩
    rw [Nat.add_right_comm]
    exact h (j + 1) (Nat.succ_le_succ hj)
  · rintro ⟨hfirst, hrest⟩ j hj
    cases j with
    | zero => exact hfirst
    | succ j =>
      rw [← Nat.add_assoc, Nat.add_right_comm]
      exact hrest j (Nat.le_of_succ_le_succ hj)

namespace Call

variable {σ α β ε ρ : Type} {Nested : ρ → Prop} {c : Call σ α} (rejected : ε)

def bind : Call σ α → (α → Call σ β) → Call σ β
  | .done a, f => f a
  | .acquire rest, f => .acquire (rest.bind f)
  | .release rest, f => .release (rest.bind f)
  | .access effect rest, f => .access effect fun answer => (rest answer).bind f

/-- The result of the call, or `none` when it waits for a connection that it holds. -/
def exec (size : Nat) (script : Script σ) : Call σ α → Progress σ → Option (α × Progress σ)
  | .done a, p => some (a, p)
  | .acquire rest, p =>
    if p.held < size then
      rest.exec size script
        { p with held := p.held + 1, db := script.others p.accesses p.db }
    else none
  | .release rest, p => rest.exec size script { p with held := p.held - 1 }
  | .access effect rest, p =>
    if script.fails p.accesses then
      (rest none).exec size script { p with accesses := p.accesses + 1 }
    else
      (rest (some (effect p.db).1)).exec size script
        { p with accesses := p.accesses + 1, db := (effect p.db).2 }

def query (effect : σ → β × σ) : Call σ (Option β) :=
  .acquire (.access effect fun answer => .release (.done answer))

def rowLoop (failed : ε) (body : ρ → Call σ (Except ε β)) :
    List ρ → Call σ (Except ε (List β))
  | [] => .access (fun db => ((), db)) fun
      | none => .release (.done (.error failed))
      | some _ => .release (.done (.ok []))
  | row :: rows => .access (fun db => ((), db)) fun
      | none => .release (.done (.error failed))
      | some _ => (body row).bind fun
          | .error e => .release (.done (.error e))
          | .ok item => (rowLoop failed body rows).bind fun items =>
            .done (items.map (item :: ·))

def queryRows (rejected failed : ε) (select : σ → List ρ) (body : ρ → Call σ (Except ε β)) :
    Call σ (Except ε (List β)) :=
  .acquire (.access (fun db => (select db, db)) fun
    | none => .release (.done (.error rejected))
    | some rows => rowLoop failed body rows)

def beginTx (rejected : ε) (body : Call σ (Except ε α)) : Call σ (Except ε α) :=
  .acquire (.access (fun db => ((), db)) fun
    | none => .release (.done (.error rejected))
    | some _ => body)

def inTx (rejected : ε) (effect : σ → Option β) (rest : β → Call σ (Except ε α)) :
    Call σ (Except ε α) :=
  .access (fun db => (effect db, db)) fun
    | some (some b) => rest b
    | _ => .release (.done (.error rejected))

def commit (rejected : ε) (write : σ → Option σ) (result : α) : Call σ (Except ε α) :=
  .access (fun db => ((write db).isSome, (write db).getD db)) fun
    | some true => .release (.done (.ok result))
    | _ => .release (.done (.error rejected))

/-- The call, holding `held` connections, asks for one only when it holds none. -/
def Orderly : Nat → Call σ α → Prop
  | held, .done _ => held = 0
  | held, .acquire rest => held = 0 ∧ Orderly 1 rest
  | held, .release rest => held = 1 ∧ Orderly 0 rest
  | held, .access _ rest => held = 1 ∧ ∀ answer, Orderly 1 (rest answer)

theorem orderly_bind {held : Nat} {f : α → Call σ β} (hc : Orderly held c)
    (hf : ∀ a, Orderly 0 (f a)) : Orderly held (c.bind f) := by
  induction c generalizing held with
  | done a =>
    obtain rfl : held = 0 := hc
    exact hf a
  | acquire rest ih | release rest ih => exact ⟨hc.1, ih hc.2⟩
  | access effect rest ih => exact ⟨hc.1, fun answer => ih answer (hc.2 answer)⟩

theorem orderly_query (effect : σ → β × σ) : Orderly 0 (query effect) :=
  ⟨rfl, rfl, fun _ => ⟨rfl, rfl⟩⟩

variable {body : ρ → Call σ (Except ε β)}

theorem orderly_rowLoop (failed : ε) (hbody : ∀ row, ∃ item, body row = .done item)
    (rows : List ρ) : Orderly 1 (rowLoop failed body rows) := by
  induction rows with
  | nil =>
    refine ⟨rfl, fun answer => ?_⟩
    cases answer <;> exact ⟨rfl, rfl⟩
  | cons row rows ih =>
    refine ⟨rfl, fun answer => ?_⟩
    cases answer with
    | none => exact ⟨rfl, rfl⟩
    | some _ =>
      obtain ⟨item, hitem⟩ := hbody row
      simp only [hitem, bind]
      cases item with
      | error e => exact ⟨rfl, rfl⟩
      | ok item => exact orderly_bind ih fun _ => rfl

theorem orderly_queryRows (failed : ε) (select : σ → List ρ)
    (hbody : ∀ row, ∃ item, body row = .done item) :
    Orderly 0 (queryRows rejected failed select body) := by
  refine ⟨rfl, rfl, fun answer => ?_⟩
  cases answer with
  | none => exact ⟨rfl, rfl⟩
  | some rows => exact orderly_rowLoop failed hbody rows

theorem orderly_beginTx {body : Call σ (Except ε α)} (hbody : Orderly 1 body) :
    Orderly 0 (beginTx rejected body) := by
  refine ⟨rfl, rfl, fun answer => ?_⟩
  cases answer with
  | none => exact ⟨rfl, rfl⟩
  | some _ => exact hbody

theorem orderly_inTx (effect : σ → Option β) {rest : β → Call σ (Except ε α)}
    (hrest : ∀ b, Orderly 1 (rest b)) : Orderly 1 (inTx rejected effect rest) := by
  refine ⟨rfl, fun answer => ?_⟩
  rcases answer with _ | _ | b
  · exact ⟨rfl, rfl⟩
  · exact ⟨rfl, rfl⟩
  · exact hrest b

theorem orderly_commit (write : σ → Option σ) (result : α) :
    Orderly 1 (commit rejected write result) := by
  refine ⟨rfl, fun answer => ?_⟩
  rcases answer with _ | _ | _ <;> exact ⟨rfl, rfl⟩

variable {script : Script σ} {p : Progress σ}

theorem exec_of_orderly (hc : Orderly p.held c) :
    ∃ a p', c.exec 1 script p = some (a, p') ∧ p'.held = 0 := by
  induction c generalizing p with
  | done a => exact ⟨a, p, rfl, hc⟩
  | acquire rest ih =>
    obtain ⟨hheld, hrest⟩ := hc
    simp only [exec, hheld]
    exact ih hrest
  | release rest ih =>
    obtain ⟨hheld, hrest⟩ := hc
    simp only [exec, hheld]
    exact ih hrest
  | access effect rest ih =>
    obtain ⟨hheld, hrest⟩ := hc
    have hrest' : ∀ answer, Orderly p.held (rest answer) := hheld ▸ hrest
    simp only [exec]
    split
    · exact ih none (hrest' none)
    · exact ih _ (hrest' _)

theorem exec_bind (size : Nat) (c : Call σ α) (f : α → Call σ β) (p : Progress σ) :
    (c.bind f).exec size script p =
      (c.exec size script p).bind fun r => (f r.1).exec size script r.2 := by
  induction c generalizing p with
  | done a => rfl
  | acquire rest ih =>
    simp only [bind, exec]
    split
    · exact ih _
    · rfl
  | release rest ih => exact ih _
  | access effect rest ih =>
    simp only [bind, exec]
    split
    · exact ih none _
    · exact ih _ _

theorem exec_bind_done_isSome (size : Nat) (c : Call σ α) (f : α → β) (p : Progress σ) :
    ((c.bind fun a => .done (f a)).exec size script p).isSome =
      (c.exec size script p).isSome := by
  rw [exec_bind]
  cases c.exec size script p <;> rfl

theorem exec_query_of_held (effect : σ → β × σ) (hheld : p.held = 1) :
    (query effect).exec 1 script p = none := by
  simp [query, exec, hheld]

theorem exec_rowLoop_isSome_iff {failed : ε}
    (hflat : ∀ row, ¬ Nested row → ∃ item, body row = .done (.ok item))
    (hnested : ∀ row p, Nested row → p.held = 1 → (body row).exec 1 script p = none)
    (rows : List ρ) (hheld : p.held = 1) : ((rowLoop failed body rows).exec 1 script p).isSome ↔
      ∀ i row, rows[i]? = some row → script.Reaches p.accesses i → ¬ Nested row := by
  induction rows generalizing p with
  | nil =>
    simp only [rowLoop, exec, List.getElem?_nil, reduceCtorEq, false_imp_iff, implies_true,
      iff_true]
    split <;> rfl
  | cons row rows ih =>
    simp only [rowLoop, exec]
    cases hfails : script.fails p.accesses with
    | true =>
      -- the first row is not reached, so the loop ends here
      simp only [if_true, Option.isSome_some, true_iff]
      intro i _ _ hreached
      exact absurd (hreached 0 (Nat.zero_le i)) (by simp [hfails])
    | false =>
      simp only [Bool.false_eq_true, if_false]
      have hnext : ({ p with accesses := p.accesses + 1 } : Progress σ).held = 1 := hheld
      by_cases hrow : Nested row
      · rw [exec_bind, hnested row _ hrow hnext]
        simp only [Option.bind_none, Option.isSome_none, Bool.false_eq_true, false_iff]
        intro hall
        exact hall 0 row rfl (by simpa [Script.Reaches] using hfails) hrow
      · obtain ⟨item, hitem⟩ := hflat row hrow
        rw [hitem]
        simp only [bind]
        rw [exec_bind_done_isSome, ih hnext]
        constructor
        · intro hall i other hother hreached
          cases i with
          | zero =>
            cases hother
            exact hrow
          | succ i => exact hall i other hother ((script.reaches_succ _ i).mp hreached).2
        · intro hall i other hother hreached
          exact hall (i + 1) other hother ((script.reaches_succ _ i).mpr ⟨hfails, hreached⟩)

theorem exec_queryRows_isSome_iff {rejected failed : ε} {select : σ → List ρ}
    (hflat : ∀ row, ¬ Nested row → ∃ item, body row = .done (.ok item))
    (hnested : ∀ row p, Nested row → p.held = 1 → (body row).exec 1 script p = none)
    (hheld : p.held = 0) : ((queryRows rejected failed select body).exec 1 script p).isSome ↔
      ∀ i row, (select (script.others p.accesses p.db))[i]? = some row →
        script.Reaches p.accesses (i + 1) → ¬ Nested row := by
  simp only [queryRows, exec, hheld, Nat.zero_lt_one, if_true]
  cases hfails : script.fails p.accesses with
  | true =>
    simp only [if_true, Option.isSome_some, true_iff]
    intro i _ _ hreached
    exact absurd (hreached 0 (Nat.zero_le _)) (by simp [hfails])
  | false =>
    simp only [Bool.false_eq_true, if_false]
    rw [exec_rowLoop_isSome_iff hflat hnested _ rfl]
    simp only [script.reaches_succ, hfails, true_and]

end Call

end DataPipe.Foundation
