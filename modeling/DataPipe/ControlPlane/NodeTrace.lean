import DataPipe.Foundation.Decimal
import Mathlib.Data.List.Sort
import Mathlib.Data.String.Basic

/-!
# Traces of executions

`insertExecutionNodeIO` and `GetExecutionNodeIO` of
`controlplane/internal/api/executions.go`.  A record is stored with the text of its
time, to the second, and the trace is read in the order of these texts; rows with the
same text may come in any order.
-/

namespace DataPipe.ControlPlane

open DataPipe.Foundation

/-- The year, month and day of a day counted from 1970-01-01. -/
def civil (day : Int) : Int × Nat × Nat :=
  let era := (day + 719468) / 146097
  let doe := ((day + 719468) % 146097).toNat
  let yoe := (doe - doe / 1460 + doe / 36524 - doe / 146096) / 365
  let doy := doe - (365 * yoe + yoe / 4 - yoe / 100)
  let mp := (5 * doy + 2) / 153
  let month := if mp < 10 then mp + 3 else mp - 9
  (yoe + era * 400 + (if month ≤ 2 then 1 else 0), month, doy - (153 * mp + 2) / 5 + 1)

/-- `time.UnixMilli(ms).UTC().Format(time.RFC3339)` -/
def rfc3339 (ms : Int) : String :=
  let (year, month, day) := civil (ms / 86400000)
  let second := (ms / 1000 % 86400).toNat
  let two (n : Nat) : String := String.ofList (paddedDecimal 2 n)
  (if year < 0 then "-" else "") ++ String.ofList (paddedDecimal 4 year.natAbs) ++ "-" ++
    two month ++ "-" ++ two day ++ "T" ++ two (second / 3600) ++ ":" ++ two (second / 60 % 60) ++
    ":" ++ two (second % 60) ++ "Z"

/-- Whether `time.Parse` reads such a text back: its year needs to have four digits. -/
def readable (text : String) : Bool := text.length = 20

structure NodeColumns where
  nodeID : String
  port : String := ""
  attempt : Int := 1
  durationUs : Int := 0
  input : String := ""
  outputs : String := ""
  errorMessage : String := ""
  errorCode : String := ""
  errorStack : String := ""
  deriving DecidableEq

structure NodeEventInput where
  executionID : String
  timeUnixMs : Int
  columns : NodeColumns

structure NodeRow where
  executionID : String
  atText : String
  columns : NodeColumns
  deriving DecidableEq

/-- The row of `insertExecutionNodeIO`. -/
def NodeEventInput.row (ev : NodeEventInput) : NodeRow :=
  ⟨ev.executionID, rfc3339 ev.timeUnixMs, ev.columns⟩

/-- The rows of an execution, in the order of their inserts. -/
def recorded (events : List NodeEventInput) (executionID : String) : List NodeRow :=
  (events.map (·.row)).filter (·.executionID = executionID)

/-- The answers that `GetExecutionNodeIO` may give; `none` is the error of `time.Parse`. -/
def Traces (events : List NodeEventInput) (executionID : String) (trace : Option (List NodeRow)) :
    Prop :=
  ∃ rows, rows.Perm (recorded events executionID) ∧ rows.Pairwise (·.atText ≤ ·.atText) ∧
    trace = if rows.all fun row => readable row.atText then some rows else none

section Order

variable {rows rows' : List NodeRow}

theorem eq_of_perm_of_sorted (hrows : rows.Pairwise fun a b => a = b ∨ a.atText < b.atText)
    (hperm : rows'.Perm rows) (hsorted : rows'.Pairwise (·.atText ≤ ·.atText)) : rows' = rows := by
  have hunique : ∀ a ∈ rows, ∀ b ∈ rows, a.atText = b.atText → a = b := by
    have hpairs : rows.Pairwise fun a b => a.atText = b.atText → a = b :=
      hrows.imp fun h heq => h.resolve_right fun hlt => hlt.ne heq
    intro a ha b hb
    exact hpairs.forall_of_forall_of_flip (fun _ _ _ => rfl)
      (hpairs.imp fun h heq => (h heq.symm).symm) ha hb
  refine hperm.eq_of_pairwise (fun a b ha hb hle hge => ?_) hsorted (hrows.imp fun h => ?_)
  · exact hunique a (hperm.subset ha) b hb (le_antisymm hle hge)
  · exact h.elim (fun heq => heq ▸ le_rfl) le_of_lt

theorem eq_of_same_text {a b : NodeRow} (hsorted : rows.Pairwise (·.atText ≤ ·.atText))
    (hab : [a, b].Sublist rows) (hsame : a.atText = b.atText)
    (honly : ∀ rows' : List NodeRow, rows'.Perm rows →
      rows'.Pairwise (·.atText ≤ ·.atText) → rows' = rows) : a = b := by
  obtain ⟨first, second, rfl, ha, hb⟩ := List.cons_sublist_iff.mp hab
  obtain ⟨l, m, rfl⟩ := List.append_of_mem ha
  obtain ⟨n, r, rfl⟩ := List.append_of_mem (List.singleton_sublist.mp hb)
  have hswap : l ++ b :: m ++ (n ++ a :: r) = l ++ a :: m ++ (n ++ b :: r) := by
    refine honly _ (List.perm_iff_count.mpr fun c => ?_) ?_
    · simp only [List.count_append, List.count_cons]
      omega
    · rw [← List.pairwise_map] at hsorted ⊢
      simpa [hsame] using hsorted
  simp only [List.append_assoc, List.append_cancel_left_eq, List.cons_append,
    List.cons.injEq] at hswap
  exact hswap.1.symm

end Order

def sameSecond : List NodeEventInput :=
  [⟨"e", 1000, { nodeID := "a" }⟩, ⟨"e", 1500, { nodeID := "b" }⟩]

end DataPipe.ControlPlane
