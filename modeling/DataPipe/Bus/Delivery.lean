import DataPipe.Bus.Topics

/-!
# Which subscriptions a topic reaches

`Publish` sends to the subscriptions that `matchTopic` and `tagsMatch` choose.  They are compared
with the MQTT rules for wildcards and with tags that are really present.
-/

namespace DataPipe.Bus.Topics

open DataPipe.Foundation

/-- What a subscription asks for.  The filter is a map: it has one value for a key. -/
structure Interest where
  pattern : String
  filter : Tags
  nodup_keys : (filter.map Prod.fst).Nodup

/-- The subscriptions that `Publish` sends to, each once, in the order the map is iterated in. -/
def publish (subs : List Interest) (topic : String) (tags : Tags) : List Interest :=
  subs.filter fun sub => matchTopic sub.pattern topic && tagsMatch sub.filter tags

/-- The MQTT rules. -/
inductive Matches : List Level → List Level → Prop where
  | nil : Matches [] []
  | rest (topic : List Level) : Matches [['#']] topic
  | single {pattern topic : List Level} (level : Level) :
    Matches pattern topic → Matches (['+'] :: pattern) (level :: topic)
  | level {pattern topic : List Level} {level : Level} :
    level ≠ ['#'] → Matches pattern topic → Matches (level :: pattern) (level :: topic)

def Interest.Wants (sub : Interest) (topic : String) (tags : Tags) : Prop :=
  Matches (levels sub.pattern) (levels topic) ∧
    ∀ wanted ∈ sub.filter, tags.lookup wanted.1 = some wanted.2

/-- The pattern has `#` as its last level only, and the filter asks for no empty value. -/
def Interest.Regular (sub : Interest) : Prop :=
  ['#'] ∉ (levels sub.pattern).dropLast ∧ ∀ wanted ∈ sub.filter, wanted.2 ≠ ""

variable {pattern topic : List Level} {filter tags : Tags}

theorem Matches.notMem_dropLast (h : Matches pattern topic) : ['#'] ∉ pattern.dropLast := by
  induction h with
  | nil | rest => simp
  | @single pattern topic level h ih => cases pattern <;> simp_all
  | @level pattern topic level hne h ih => cases pattern <;> simp_all [eq_comm]

theorem Matches.matchFrom_eq_true (h : Matches pattern topic) : matchFrom pattern topic = true := by
  induction h with
  | nil => rfl
  | rest topic => simp [matchFrom]
  | single level h ih | level hne h ih => simp [matchFrom, ih]

theorem matches_of_matchFrom (hhash : ['#'] ∉ pattern.dropLast)
    (h : matchFrom pattern topic = true) : Matches pattern topic := by
  induction pattern generalizing topic with
  | nil =>
    obtain rfl := List.isEmpty_iff.mp h
    exact .nil
  | cons p pattern ih =>
    by_cases hp : p = ['#']
    · cases pattern with
      | nil => exact hp ▸ .rest topic
      | cons p' pattern => simp [hp] at hhash
    · cases topic with
      | nil => simp [matchFrom, hp] at h
      | cons t topic =>
        simp only [matchFrom, if_neg hp, Bool.and_eq_true, Bool.or_eq_true, decide_eq_true_eq] at h
        have hrest := ih (fun hmem => hhash (by cases pattern <;> simp_all)) h.2
        rcases h.1 with rfl | rfl
        · exact .single t hrest
        · exact .level hp hrest

theorem tagsMatch_eq_true : tagsMatch filter tags = true ↔
    ∀ wanted ∈ filter, (tags.lookup wanted.1).getD "" = wanted.2 := by
  simp [tagsMatch]

theorem lookup_filter_ne_empty (hnodup : (filter.map Prod.fst).Nodup) {key value : String}
    (hmem : (key, value) ∈ filter) :
    (filter.filter (·.2 ≠ "")).lookup key = if value = "" then none else some value := by
  induction filter with
  | nil => cases hmem
  | cons entry filter ih =>
    obtain ⟨hfresh, hnodup⟩ := List.nodup_cons.mp hnodup
    rw [List.filter_cons]
    rcases List.mem_cons.mp hmem with rfl | htail
    · by_cases hvalue : value = ""
      · have habsent : ∀ other ∈ filter, (key == other.1) = false := by
          intro other hother
          exact beq_eq_false_iff_ne.mpr fun h => hfresh (List.mem_map.mpr ⟨other, hother, h.symm⟩)
        simpa [hvalue] using fun a b hab _ => habsent (a, b) hab
      · simp [hvalue]
    · have hne : (key == entry.1) = false :=
        beq_eq_false_iff_ne.mpr fun h => hfresh (h ▸ List.mem_map_of_mem htail)
      rw [← ih hnodup htail]
      split
      · rw [List.lookup_cons, hne]
      · rfl

variable {sub : Interest}

theorem Interest.exists_unwanted (h : ¬sub.Regular) :
    ∃ topic tags, (matchTopic sub.pattern topic && tagsMatch sub.filter tags) = true ∧
      ¬sub.Wants topic tags := by
  refine ⟨exampleTopic (levels sub.pattern), sub.filter.filter (·.2 ≠ ""), ?_, ?_⟩
  · have hlevels : levels (exampleTopic (levels sub.pattern)) = (levels sub.pattern).map concrete :=
      levels_exampleTopic (List.splitOn_ne_nil _ _) fun _ => notMem_of_mem_splitOn
    rw [Bool.and_eq_true, matchTopic, tagsMatch_eq_true, hlevels]
    refine ⟨matchFrom_map_concrete _, ?_⟩
    rintro ⟨key, value⟩ hmem
    rw [lookup_filter_ne_empty sub.nodup_keys hmem]
    split <;> simp_all
  · rintro ⟨hmatches, htags⟩
    refine h ⟨hmatches.notMem_dropLast, ?_⟩
    rintro ⟨key, value⟩ hmem (rfl : value = "")
    have hlookup := htags _ hmem
    rw [lookup_filter_ne_empty sub.nodup_keys hmem] at hlookup
    cases hlookup

theorem Interest.Regular.accepts_iff (h : sub.Regular) (topic : String) (tags : Tags) :
    (matchTopic sub.pattern topic && tagsMatch sub.filter tags) = true ↔ sub.Wants topic tags := by
  rw [Bool.and_eq_true, tagsMatch_eq_true]
  refine and_congr ⟨matches_of_matchFrom h.1, Matches.matchFrom_eq_true⟩ ?_
  refine forall₂_congr fun wanted hmem => ?_
  have hvalue := h.2 wanted hmem
  cases htag : tags.lookup wanted.1 <;> simp [hvalue.symm]

end DataPipe.Bus.Topics
