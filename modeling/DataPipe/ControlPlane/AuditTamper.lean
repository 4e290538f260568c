import DataPipe.ControlPlane.AuditLog
import DataPipe.Foundation.Threads

/-!
# Tampering with the audit log

Which changes of one row `Verify` reports, and that it reports every deletion but
that of the last row.  The digest is taken as injective.
-/

namespace DataPipe.ControlPlane

open DataPipe.Foundation DataPipe.Flow

inductive Change where
  | id (value : String)
  | seq (value : Int)
  | atTime (value : String)
  | actorUserID (value : String)
  | action (value : String)
  | objectType (value : String)
  | objectID (value : String)
  | projectID (value : Option String)
  | beforeJSON (text : List Char)
  | afterJSON (text : List Char)
  | prevHash (value : String)
  | hash (value : String)

namespace Change

def apply (row : AuditRow) : Change → AuditRow
  | .id value => { row with id := value }
  | .seq value => { row with seq := value }
  | .atTime value => { row with atTime := value }
  | .actorUserID value => { row with actorUserID := value }
  | .action value => { row with action := value }
  | .objectType value => { row with objectType := value }
  | .objectID value => { row with objectID := value }
  | .projectID value => { row with projectID := value }
  | .beforeJSON text => { row with beforeJSON := text }
  | .afterJSON text => { row with afterJSON := text }
  | .prevHash value => { row with prevHash := value }
  | .hash value => { row with hash := value }

/--
The changes that show in what is hashed: the id and the project are not hashed at all, times
and JSON values are hashed as they are read, and null is hashed like an empty object.
-/
def Shows (env : AuditEnv) (row : AuditRow) : Change → Prop
  | .id _ => False
  | .projectID _ => False
  | .seq value => value ≠ row.seq
  | .atTime value => env.times.normal value ≠ env.times.normal row.atTime
  | .actorUserID value => value ≠ row.actorUserID
  | .action value => value ≠ row.action
  | .objectType value => value ≠ row.objectType
  | .objectID value => value ≠ row.objectID
  | .beforeJSON text =>
    (RawJson.decoded env.floats text).map nilAsEmpty ≠
      (RawJson.decoded env.floats row.beforeJSON).map nilAsEmpty
  | .afterJSON text =>
    (RawJson.decoded env.floats text).map nilAsEmpty ≠
      (RawJson.decoded env.floats row.afterJSON).map nilAsEmpty
  | .prevHash value => value ≠ row.prevHash
  | .hash value => value ≠ row.hash

end Change

namespace AuditEnv

variable {env : AuditEnv}

theorem map_marshalDecoded_inj {first second : Option Json} :
    first.map marshalDecoded = second.map marshalDecoded ↔
      first.map nilAsEmpty = second.map nilAsEmpty := by
  have hinjective : Function.Injective fun value => (RawJson.ofJson value).compactText := by
    intro v w h
    have hescaped := congrArg RawJson.value
      (RawJson.htmlEscaped_eq_iff.mpr (RawJson.compactText_eq_iff.mp h))
    rwa [RawJson.value_htmlEscaped, RawJson.value_htmlEscaped, RawJson.value_ofJson,
      RawJson.value_ofJson] at hescaped
  have hcomp : marshalDecoded = (fun value => (RawJson.ofJson value).compactText) ∘ nilAsEmpty :=
    funext marshalDecoded_eq
  rw [hcomp, ← Option.map_map, ← Option.map_map]
  exact (Option.map_injective hinjective).eq_iff

variable {other row : AuditRow} {rows : List AuditRow} {prevHash : String}

theorem intact_iff_of_hash_eq (h : env.Intact row)
    (hhash : other.hash = row.hash) : env.Intact other ↔ env.hashed other = env.hashed row := by
  rw [Intact, hhash, ← h]
  exact (Option.map_injective env.digest.hex_injective).eq_iff

theorem exists_hashed_of_intact (h : env.Intact row) :
    ∃ text, env.hashed row = some text ∧ env.digest.hex text = row.hash :=
  Option.map_eq_some_iff.mp h

attribute [local simp] Change.apply Change.Shows hashText

theorem hashed_apply_eq_iff {text : List Char} (h : env.hashed row = some text) (change : Change)
    (hhash : (change.apply row).hash = row.hash) :
    env.hashed (change.apply row) = env.hashed row ↔ ¬ change.Shows env row := by
  obtain ⟨atTime, before, after, htime, hbefore, hafter, -⟩ := hashed_eq_some_iff.mp h
  cases change with
  | id | projectID => exact iff_of_true rfl id
  | hash value => exact iff_of_true rfl (not_not.mpr hhash)
  | seq value =>
    have hchars : (intLit value).chars = (intLit row.seq).chars ↔ value = row.seq := by
      rw [← intLit_injective.eq_iff, NumLit.mk.injEq]
    simp [hashed, htime, hbefore, hafter, hchars]
  | atTime value =>
    cases hvalue : env.times.normal value with
    | none => simp [hashed, hvalue, htime, hbefore, hafter]
    | some value' =>
      simp [hashed, hvalue, htime, hbefore, hafter, String.toList_inj]
  | beforeJSON text | afterJSON text =>
    rw [Change.Shows, not_not, ← map_marshalDecoded_inj]
    cases htext : (RawJson.decoded env.floats text).map marshalDecoded with
    | none => simp [hashed, htext, htime, hbefore, hafter]
    | some text' => simp [hashed, htext, htime, hbefore, hafter]
  | _ value =>
    simp [hashed, htime, hbefore, hafter, String.toList_inj]

theorem intact_apply_iff (h : env.Intact row) (change : Change) :
    env.Intact (change.apply row) ↔ ¬ change.Shows env row := by
  obtain ⟨text, hhashed, -⟩ := exists_hashed_of_intact h
  by_cases hhash : (change.apply row).hash = row.hash
  · exact (intact_iff_of_hash_eq h hhash).trans (hashed_apply_eq_iff hhashed change hhash)
  · cases change with
    | hash value =>
      exact iff_of_false (fun hintact => hhash (Option.mem_unique hintact h))
        (not_not.mpr hhash)
    | _ => exact absurd rfl hhash

variable {index : Nat}

theorem verifyFrom_set (h : env.verifyFrom prevHash rows = none) (hrow : rows[index]? = some row)
    (hprev : other.prevHash = row.prevHash) (hhash : other.hash = row.hash)
    (hother : env.Intact other) : env.verifyFrom prevHash (rows.set index other) = none := by
  induction rows generalizing prevHash index with
  | nil => cases hrow
  | cons first rows ih =>
    obtain ⟨hfirst, hintact, hrest⟩ := verifyFrom_cons_eq_none.mp h
    cases index with
    | zero =>
      obtain rfl : first = row := Option.some.inj hrow
      exact verifyFrom_cons_eq_none.mpr ⟨hprev.trans hfirst, hother, hhash ▸ hrest⟩
    | succ index => exact verifyFrom_cons_eq_none.mpr ⟨hfirst, hintact, ih hrest hrow⟩

theorem bar_not_mem_prevHash (h : env.verifyFrom prevHash rows = none)
    (hbar : '|' ∉ prevHash.toList) : ∀ row ∈ rows, '|' ∉ row.prevHash.toList := by
  induction rows generalizing prevHash with
  | nil => simp
  | cons row rows ih =>
    obtain ⟨hprev, hintact, hrest⟩ := verifyFrom_cons_eq_none.mp h
    obtain ⟨text, -, hhex⟩ := exists_hashed_of_intact hintact
    rw [List.forall_mem_cons, hprev]
    exact ⟨hbar, ih hrest (hhex ▸ env.digest.hex_no_bar text)⟩

theorem seq_eq_of_hash_eq (hrow : env.Intact row) (hother : env.Intact other)
    (hbar : '|' ∉ row.prevHash.toList) (hbar' : '|' ∉ other.prevHash.toList)
    (h : row.hash = other.hash) : row.seq = other.seq := by
  have hhashed : env.hashed row = env.hashed other := (intact_iff_of_hash_eq hother h).mp hrow
  obtain ⟨text, htext, -⟩ := exists_hashed_of_intact hother
  obtain ⟨_, _, _, -, -, -, rfl⟩ := hashed_eq_some_iff.mp htext
  obtain ⟨_, _, _, -, -, -, hsame⟩ := hashed_eq_some_iff.mp (hhashed.trans htext)
  obtain ⟨-, hrest⟩ := eq_of_append_cons_eq hbar hbar' hsame
  have hdigits : ∀ n : Int, '|' ∉ (intLit n).chars := fun n hmem =>
    absurd ((intLit n).isNumberChar_of_mem hmem) (by decide)
  obtain ⟨hchars, -⟩ := eq_of_append_cons_eq (hdigits _) (hdigits _) hrest
  exact intLit_injective (NumLit.mk.injEq .. ▸ hchars)

theorem hashes_differ (h : env.verify rows = none)
    (hascending : rows.Pairwise (·.seq < ·.seq)) : rows.Pairwise (·.hash ≠ ·.hash) := by
  have hintact := intact_of_verifyFrom h
  have hbar := bar_not_mem_prevHash h (by simp)
  refine hascending.imp_of_mem ?_
  intro row other hrow hother hseq hhash
  exact hseq.ne (seq_eq_of_hash_eq (hintact row hrow) (hintact other hother) (hbar row hrow)
    (hbar other hother) hhash)

theorem verifyFrom_eraseIdx_ne_none (h : env.verifyFrom prevHash rows = none)
    (hfresh : ∀ row ∈ rows, row.hash ≠ prevHash) (hdiffer : rows.Pairwise (·.hash ≠ ·.hash))
    (hindex : index + 1 < rows.length) : env.verifyFrom prevHash (rows.eraseIdx index) ≠ none := by
  induction rows generalizing prevHash index with
  | nil => cases hindex
  | cons row rows ih =>
    obtain ⟨-, -, hrest⟩ := verifyFrom_cons_eq_none.mp h
    obtain ⟨hrow, hrows⟩ := List.pairwise_cons.mp hdiffer
    intro herased
    cases index with
    | zero =>
      cases rows with
      | nil => exact absurd hindex (by simp)
      | cons next rows =>
        obtain ⟨hnext, -, -⟩ := verifyFrom_cons_eq_none.mp hrest
        obtain ⟨hnext', -, -⟩ := verifyFrom_cons_eq_none.mp herased
        exact hfresh row List.mem_cons_self (hnext.symm.trans hnext')
    | succ index =>
      obtain ⟨-, -, herased⟩ := verifyFrom_cons_eq_none.mp herased
      have hfresh' : ∀ other ∈ rows, other.hash ≠ row.hash :=
        fun other hother heq => hrow other hother heq.symm
      exact ih hrest hfresh' hrows (Nat.lt_of_succ_lt_succ hindex) herased

end AuditEnv

theorem Change.keeps_of_not_shows {env : AuditEnv} {row : AuditRow} {change : Change}
    (h : ¬ change.Shows env row) :
    (change.apply row).seq = row.seq ∧ (change.apply row).prevHash = row.prevHash ∧
      (change.apply row).hash = row.hash := by
  cases change with
  | seq value => exact ⟨not_not.mp h, rfl, rfl⟩
  | prevHash value => exact ⟨rfl, not_not.mp h, rfl⟩
  | hash value => exact ⟨rfl, rfl, not_not.mp h⟩
  | _ => exact ⟨rfl, rfl, rfl⟩

section Tampering

variable {env : AuditEnv} {log : List AuditRow} {index : Nat} {row : AuditRow}

theorem change_reported_iff (haccepted : env.verify log = none)
    (hascending : log.Pairwise (·.seq < ·.seq)) (hrow : log[index]? = some row) (change : Change) :
    (∀ rows, InOrder (log.set index (change.apply row)) rows → env.verify rows ≠ none) ↔
      change.Shows env row := by
  have hintact : env.Intact row :=
    AuditEnv.intact_of_verifyFrom haccepted row (List.mem_of_getElem? hrow)
  constructor
  · intro hreported
    by_contra hshows
    obtain ⟨hseq, hprev, hhash⟩ := Change.keeps_of_not_shows hshows
    have hsame : (log.set index (change.apply row)).map (·.seq) = log.map (·.seq) :=
      map_set_of_eq hrow hseq
    have hascending' : (log.set index (change.apply row)).Pairwise (·.seq < ·.seq) :=
      List.pairwise_map.mp (hsame ▸ List.pairwise_map.mpr hascending)
    exact hreported _ (InOrder.self hascending') (AuditEnv.verifyFrom_set haccepted hrow hprev
      hhash ((AuditEnv.intact_apply_iff hintact change).mpr hshows))
  · intro hshows rows hrows hverify
    -- the changed row is read wherever its number puts it
    have hmem : change.apply row ∈ rows :=
      hrows.perm.mem_iff.mpr (List.mem_set (List.getElem?_eq_some_iff.mp hrow).1 _)
    have hpasses := AuditEnv.intact_of_verifyFrom hverify _ hmem
    exact (AuditEnv.intact_apply_iff hintact change).mp hpasses hshows

theorem deletion_reported (haccepted : env.verify log = none)
    (hascending : log.Pairwise (·.seq < ·.seq)) (hindex : index + 1 < log.length)
    {rows : List AuditRow} (hrows : InOrder (log.eraseIdx index) rows) :
    env.verify rows ≠ none := by
  rw [hrows.eq (hascending.sublist (List.eraseIdx_sublist log index))]
  have hfresh : ∀ row ∈ log, row.hash ≠ "" := by
    intro row hrow hempty
    obtain ⟨text, -, hhex⟩ := AuditEnv.exists_hashed_of_intact
      (AuditEnv.intact_of_verifyFrom haccepted row hrow)
    exact env.digest.hex_ne_empty text (hhex.trans hempty)
  exact AuditEnv.verifyFrom_eraseIdx_ne_none haccepted hfresh
    (AuditEnv.hashes_differ haccepted hascending) hindex

end Tampering

/--
In every log that `Append` wrote and `Verify` accepts, a changed column is reported exactly
when the change shows, and the deletion of a row that is not the last is reported.
-/
theorem tampering_reported_iff (env : AuditEnv) (calls : List (AppendCall env))
    (haccepted : env.verify (env.appended calls) = none) {index : Nat} {row : AuditRow}
    (hrow : (env.appended calls)[index]? = some row) :
    (∀ change : Change,
      (∀ rows, InOrder ((env.appended calls).set index (change.apply row)) rows →
        env.verify rows ≠ none) ↔ change.Shows env row) ∧
    (index + 1 < (env.appended calls).length →
      ∀ rows, InOrder ((env.appended calls).eraseIdx index) rows → env.verify rows ≠ none) := by
  have hascending := AuditEnv.ascending_appended calls
  refine ⟨fun change => change_reported_iff haccepted hascending hrow change, ?_⟩
  intro hindex rows hrows
  exact deletion_reported haccepted hascending hindex hrows

def keptCalls : List (AppendCall plainEnv) :=
  [auditCall none, auditCall (some (.map [("name", .str "n")]))]

def keptLog : List AuditRow := plainEnv.appended keptCalls

def firstRow : AuditRow := plainEnv.newRow (0, "") (auditCall none)

theorem changed_action_and_deletion_reported :
    plainEnv.verify keptLog = none ∧
      (∀ rows, InOrder (keptLog.set 0 ((Change.action "deleted").apply firstRow)) rows →
        plainEnv.verify rows ≠ none) ∧
      (∀ rows, InOrder (keptLog.eraseIdx 0) rows → plainEnv.verify rows ≠ none) := by
  have haccepted : plainEnv.verify keptLog = none := by decide +kernel
  have hrow : keptLog[0]? = some firstRow := by decide +kernel
  obtain ⟨hchanged, hdeleted⟩ := tampering_reported_iff plainEnv keptCalls haccepted hrow
  refine ⟨haccepted, (hchanged (.action "deleted")).mpr ?_, hdeleted (by decide +kernel)⟩
  exact fun h => absurd h (by decide)

def movedLog : List AuditRow := keptLog.set 0 ((Change.projectID (some "q")).apply firstRow)

def renamedLog : List AuditRow := keptLog.set 0 ((Change.id "f").apply firstRow)

theorem moved_entry_not_reported :
    plainEnv.verify keptLog = none ∧
      (InOrder movedLog movedLog ∧ movedLog ≠ keptLog ∧ plainEnv.verify movedLog = none) ∧
      (InOrder renamedLog renamedLog ∧ renamedLog ≠ keptLog ∧
        plainEnv.verify renamedLog = none) := by
  obtain ⟨hkept, hmoved, hrenamed⟩ : plainEnv.verify keptLog = none ∧
      (movedLog ≠ keptLog ∧ plainEnv.verify movedLog = none) ∧
      renamedLog ≠ keptLog ∧ plainEnv.verify renamedLog = none := by
    decide +kernel
  exact ⟨hkept, ⟨InOrder.self (by decide +kernel), hmoved⟩, InOrder.self (by decide +kernel),
    hrenamed⟩

end DataPipe.ControlPlane
