import Mathlib.Data.List.Range
import DataPipe.Foundation.Duration

/-!
# Windows over grouped inputs

The `window-aggregate` node keeps a buffer for each group and closes windows by time, by
count or by the gap since the last item.
-/

set_option linter.dupNamespace false

namespace DataPipe.Nodes.Windows

open DataPipe.Foundation

variable {V : Type}

inductive WindowType where
  | tumbling
  | sliding
  | session
  | other (name : String)
  deriving DecidableEq, Repr

inductive WindowBy where
  | time
  | count
  | other (name : String)
  deriving DecidableEq, Repr

structure Config where
  windowType : WindowType
  windowBy : WindowBy
  sizeMs : Int
  count : Int
  sessionGapMs : Int
  deriving DecidableEq, Repr

inductive ConfigError where
  | sizeMs
  | count
  | windowBy (windowType : WindowType)
  | sessionGapMs
  | windowType (windowType : WindowType)
  deriving DecidableEq, Repr

def Config.check (cfg : Config) : Except ConfigError Unit :=
  match cfg.windowType with
  | .tumbling | .sliding =>
    match cfg.windowBy with
    | .time => if cfg.sizeMs ≤ 0 then .error .sizeMs else .ok ()
    | .count => if cfg.count ≤ 0 then .error .count else .ok ()
    | .other _ => .error (.windowBy cfg.windowType)
  | .session => if cfg.sessionGapMs ≤ 0 then .error .sessionGapMs else .ok ()
  | .other _ => .error (.windowType cfg.windowType)

structure Item (V : Type) where
  value : V
  time : Int
  deriving DecidableEq, Repr

/-- `groupState`; the times in `itemTimes` are those of the items, and a time that is not set is
`none`. -/
structure Group (V : Type) where
  items : List (Item V)
  windowStart : Option Int
  lastItem : Option Int
  deriving DecidableEq, Repr

def Group.empty : Group V := ⟨[], none, none⟩

/-- The group after an item, and the window that is closed. -/
def Group.process (cfg : Config) (g : Group V) (x : Item V) : Group V × Option (List (Item V)) :=
  match cfg.windowType with
  | .tumbling =>
    if cfg.windowBy = .time then
      let start := g.windowStart.getD x.time
      if milliseconds cfg.sizeMs ≤ elapsed x.time start ∧ g.items ≠ [] then
        ({ g with items := [x], windowStart := some x.time }, some g.items)
      else ({ g with items := g.items ++ [x], windowStart := some start }, none)
    else
      let items := g.items ++ [x]
      if cfg.count ≤ items.length then ({ g with items := [] }, some items)
      else ({ g with items }, none)
  | .sliding =>
    if cfg.windowBy = .time then
      let cutoff := x.time + wrap64 (-cfg.sizeMs * 1000000)
      let items := (g.items ++ [x]).dropWhile (·.time < cutoff)
      ({ g with items }, some items)
    else
      let items := g.items ++ [x]
      let items :=
        if cfg.count < items.length then items.drop (items.length - cfg.count).toNat else items
      ({ g with items }, some items)
  | .session =>
    if (∃ last ∈ g.lastItem, milliseconds cfg.sessionGapMs < elapsed x.time last) ∧
        g.items ≠ [] then
      ({ g with items := [x], lastItem := some x.time }, some g.items)
    else ({ g with items := g.items ++ [x], lastItem := some x.time }, none)
  | .other _ => (g, none)

structure Input (V : Type) where
  key : String
  item : Item V

/-- The groups, those not made yet being empty, and the windows that were aggregated. -/
structure Node (V : Type) where
  groups : String → Group V
  emitted : List (String × List (Item V))

namespace Node

def start : Node V := ⟨fun _ => .empty, []⟩

def process (cfg : Config) (n : Node V) (input : Input V) : Node V :=
  let (g, closed) := (n.groups input.key).process cfg input.item
  ⟨Function.update n.groups input.key g, n.emitted ++ closed.toList.map (input.key, ·)⟩

def run (cfg : Config) (inputs : List (Input V)) : Node V := inputs.foldl (process cfg) start

def windows (n : Node V) (key : String) : List (List (Item V)) :=
  (n.emitted.filter (·.1 = key)).map (·.2)

end Node

def itemsOf (key : String) (inputs : List (Input V)) : List (Item V) :=
  (inputs.filter (·.key = key)).map Input.item

/-- The windows and the open buffer are the input, cut exactly before the items for which `cuts`
holds of what the window has so far. -/
structure CutBy (cuts : List (Item V) → Item V → Prop) (windows : List (List (Item V)))
    (buffer xs : List (Item V)) : Prop where
  joined : windows.flatten ++ buffer = xs
  within : ∀ w ∈ windows ++ [buffer], ∀ {before x after},
    w = before ++ x :: after → before ≠ [] → ¬ cuts before x
  between : (windows ++ [buffer]).IsChain fun w next => w ≠ [] ∧ ∃ x ∈ next.head?, cuts w x

def Late (size : Int) (before : List (Item V)) (x : Item V) : Prop :=
  ∃ first ∈ before.head?, size ≤ x.time - first.time

def Apart (gap : Int) (before : List (Item V)) (x : Item V) : Prop :=
  ∃ last ∈ before.getLast?, gap < x.time - last.time

/-- The items that are not older than `size` when the last one comes. -/
def recent (size : Int) (xs : List (Item V)) : List (Item V) :=
  xs.filter fun y => ∀ x ∈ xs.getLast?, x.time - y.time ≤ size

def latest (count : Int) (xs : List (Item V)) : List (Item V) :=
  xs.drop (xs.length - count).toNat

/-- One emission for each item, about the items up to it. -/
def emissions (window : List (Item V) → List (Item V)) (xs : List (Item V)) :
    List (List (Item V)) :=
  (List.range xs.length).map fun i => window (xs.take (i + 1))

def Exact (cfg : Config) (windows : List (List (Item V))) (buffer xs : List (Item V)) : Prop :=
  match cfg.windowType, cfg.windowBy with
  | .tumbling, .time => CutBy (Late (cfg.sizeMs * 1000000)) windows buffer xs
  | .tumbling, _ => windows.flatten ++ buffer = xs ∧
      (∀ w ∈ windows, (w.length : Int) = cfg.count) ∧ (buffer.length : Int) < cfg.count
  | .sliding, .time => windows = emissions (recent (cfg.sizeMs * 1000000)) xs
  | .sliding, _ => windows = emissions (latest cfg.count) xs
  | .session, _ => CutBy (Apart (cfg.sessionGapMs * 1000000)) windows buffer xs
  | .other _, _ => True

/-- A duration that is used does not exceed the largest one. -/
def Config.InRange (cfg : Config) : Prop :=
  match cfg.windowType, cfg.windowBy with
  | .tumbling, .time | .sliding, .time => cfg.sizeMs ≤ 9223372036854
  | .session, _ => cfg.sessionGapMs ≤ 9223372036854
  | _, _ => True

def groupRun (cfg : Config) (xs : List (Item V)) : Group V × List (List (Item V)) :=
  xs.foldl (fun s x => ((s.1.process cfg x).1, s.2 ++ (s.1.process cfg x).2.toList)) (.empty, [])

theorem groupRun_concat (cfg : Config) (xs : List (Item V)) (x : Item V) :
    groupRun cfg (xs ++ [x]) =
      (((groupRun cfg xs).1.process cfg x).1,
        (groupRun cfg xs).2 ++ ((groupRun cfg xs).1.process cfg x).2.toList) := by
  rw [groupRun, List.foldl_append]
  rfl

/-- A group sees its own items only. -/
theorem run_eq_groupRun (cfg : Config) (inputs : List (Input V)) (key : String) :
    (Node.run cfg inputs).groups key = (groupRun cfg (itemsOf key inputs)).1 ∧
      (Node.run cfg inputs).windows key = (groupRun cfg (itemsOf key inputs)).2 := by
  induction inputs using List.reverseRecOn with
  | nil => exact ⟨rfl, rfl⟩
  | append_singleton inputs input ih =>
    obtain ⟨hgroup, hwindows⟩ := ih
    have hrun : Node.run cfg (inputs ++ [input]) = (Node.run cfg inputs).process cfg input := by
      rw [Node.run, List.foldl_append]
      rfl
    have hitems : itemsOf key (inputs ++ [input]) =
        itemsOf key inputs ++ if input.key = key then [input.item] else [] := by
      unfold itemsOf
      split <;> simp_all
    unfold Node.windows at hwindows ⊢
    rw [hrun, hitems]
    unfold Node.process
    dsimp only
    rw [List.filter_append, List.map_append, hwindows]
    by_cases hkey : input.key = key
    · subst hkey
      rw [if_pos rfl, groupRun_concat, Function.update_self, hgroup]
      refine ⟨rfl, congrArg _ ?_⟩
      cases ((groupRun cfg (itemsOf input.key inputs)).1.process cfg input.item).2 <;> simp
    · rw [if_neg hkey, List.append_nil, Function.update_of_ne (Ne.symm hkey)]
      refine ⟨hgroup, ?_⟩
      cases ((Node.run cfg inputs).groups input.key |>.process cfg input.item).2 <;> simp [hkey]

namespace CutBy

variable {cuts : List (Item V) → Item V → Prop} {windows : List (List (Item V))}
  {buffer xs : List (Item V)} {x : Item V}

theorem nil : CutBy cuts [] [] ([] : List (Item V)) := by
  refine ⟨rfl, ?_, List.isChain_singleton _⟩
  rintro w hw before x after rfl
  simp at hw

theorem append (h : CutBy cuts windows buffer xs) (hcut : buffer ≠ [] → ¬ cuts buffer x) :
    CutBy cuts windows (buffer ++ [x]) (xs ++ [x]) := by
  refine ⟨by rw [← List.append_assoc, h.joined], ?_, ?_⟩
  · intro w hw before y after hsplit hbefore
    rcases List.mem_append.mp hw with hold | hnew
    · exact h.within w (List.mem_append_left _ hold) hsplit hbefore
    · rw [List.mem_singleton.mp hnew] at hsplit
      rcases List.eq_nil_or_concat after with rfl | ⟨after, z, rfl⟩
      · obtain ⟨rfl, hy⟩ := List.append_inj' hsplit rfl
        cases hy
        exact hcut hbefore
      · rw [List.concat_eq_append, ← List.cons_append, ← List.append_assoc] at hsplit
        obtain ⟨hold, -⟩ := List.append_inj' hsplit rfl
        exact h.within buffer (by simp) hold hbefore
  · have hchain := h.between
    rw [List.isChain_append] at hchain ⊢
    refine ⟨hchain.1, List.isChain_singleton _, ?_⟩
    rintro w hw next ⟨⟩
    obtain ⟨hne, y, hy, hcuts⟩ := hchain.2.2 w hw buffer rfl
    exact ⟨hne, y, by rw [List.head?_append, hy]; rfl, hcuts⟩

theorem close (h : CutBy cuts windows buffer xs) (hne : buffer ≠ []) (hcut : cuts buffer x) :
    CutBy cuts (windows ++ [buffer]) [x] (xs ++ [x]) := by
  refine ⟨by rw [List.flatten_append, List.flatten_singleton, h.joined], ?_, ?_⟩
  · intro w hw before y after hsplit hbefore
    rcases List.mem_append.mp hw with hold | hnew
    · exact h.within w hold hsplit hbefore
    · rw [List.mem_singleton.mp hnew] at hsplit
      cases before with
      | nil => exact absurd rfl hbefore
      | cons z before => simp at hsplit
  · rw [List.isChain_append]
    refine ⟨h.between, List.isChain_singleton _, ?_⟩
    rintro w hw next ⟨⟩
    rw [List.getLast?_concat] at hw
    cases hw
    exact ⟨hne, x, rfl, hcut⟩

end CutBy

section Cut

variable {cfg : Config}

theorem cut_tumbling (htype : cfg.windowType = .tumbling) (hby : cfg.windowBy = .time)
    (hsize : 0 < cfg.sizeMs) (hrange : cfg.sizeMs ≤ 9223372036854) (xs : List (Item V)) :
    CutBy (Late (cfg.sizeMs * 1000000)) (groupRun cfg xs).2 (groupRun cfg xs).1.items xs ∧
      (groupRun cfg xs).1.windowStart = (groupRun cfg xs).1.items.head?.map Item.time := by
  induction xs using List.reverseRecOn with
  | nil => exact ⟨.nil, rfl⟩
  | append_singleton xs x ih =>
    rw [groupRun_concat]
    generalize groupRun cfg xs = s at ih ⊢
    obtain ⟨hcut, hstart⟩ := ih
    obtain ⟨hms, hmax⟩ := milliseconds_eq hsize hrange
    have hlate : s.1.items ≠ [] →
        (milliseconds cfg.sizeMs ≤ elapsed x.time (s.1.windowStart.getD x.time) ↔
          Late (cfg.sizeMs * 1000000) s.1.items x) := by
      intro hne
      obtain ⟨first, rest, hitems⟩ := List.exists_cons_of_ne_nil hne
      rw [hstart, hitems, hms, le_elapsed_iff (Int.le_of_lt hmax)]
      simp [Late]
    simp only [Group.process, htype, hby, if_true]
    split
    case isTrue h => exact ⟨hcut.close h.2 ((hlate h.2).mp h.1), rfl⟩
    case isFalse h =>
      refine ⟨?_, ?_⟩
      · rw [Option.toList_none, List.append_nil]
        exact hcut.append fun hne hcuts => h ⟨(hlate hne).mpr hcuts, hne⟩
      · rw [hstart]
        cases s.1.items <;> rfl

theorem cut_session (htype : cfg.windowType = .session) (hgap : 0 < cfg.sessionGapMs)
    (hrange : cfg.sessionGapMs ≤ 9223372036854) (xs : List (Item V)) :
    CutBy (Apart (cfg.sessionGapMs * 1000000)) (groupRun cfg xs).2 (groupRun cfg xs).1.items xs ∧
      (groupRun cfg xs).1.lastItem = (groupRun cfg xs).1.items.getLast?.map Item.time := by
  induction xs using List.reverseRecOn with
  | nil => exact ⟨.nil, rfl⟩
  | append_singleton xs x ih =>
    rw [groupRun_concat]
    generalize groupRun cfg xs = s at ih ⊢
    obtain ⟨hcut, hlast⟩ := ih
    obtain ⟨hms, hmax⟩ := milliseconds_eq hgap hrange
    have hapart : (∃ last ∈ s.1.lastItem, milliseconds cfg.sessionGapMs < elapsed x.time last) ↔
        Apart (cfg.sessionGapMs * 1000000) s.1.items x := by
      simp only [hlast, hms, Apart, lt_elapsed_iff hmax]
      simp
    have hne : Apart (cfg.sessionGapMs * 1000000) s.1.items x → s.1.items ≠ [] := by
      rintro ⟨last, hmem, -⟩ hnil
      simp [hnil] at hmem
    simp only [Group.process, htype]
    split
    case isTrue h => exact ⟨hcut.close h.2 (hapart.mp h.1), rfl⟩
    case isFalse h =>
      refine ⟨?_, by simp⟩
      rw [Option.toList_none, List.append_nil]
      exact hcut.append fun _ hcuts => h ⟨hapart.mpr hcuts, hne hcuts⟩

theorem count_tumbling (htype : cfg.windowType = .tumbling) (hby : cfg.windowBy ≠ .time)
    (hcount : 0 < cfg.count) (xs : List (Item V)) :
    (groupRun cfg xs).2.flatten ++ (groupRun cfg xs).1.items = xs ∧
      (∀ w ∈ (groupRun cfg xs).2, (w.length : Int) = cfg.count) ∧
      ((groupRun cfg xs).1.items.length : Int) < cfg.count := by
  induction xs using List.reverseRecOn with
  | nil => exact ⟨rfl, fun w hw => (nomatch hw), hcount⟩
  | append_singleton xs x ih =>
    rw [groupRun_concat]
    generalize groupRun cfg xs = s at ih ⊢
    obtain ⟨hjoined, hfull, hopen⟩ := ih
    simp only [Group.process, htype, hby, if_false]
    split
    case isTrue h =>
      refine ⟨?_, ?_, hcount⟩
      · rw [← hjoined]
        simp
      · intro w hw
        rcases List.mem_append.mp hw with hold | hnew
        · exact hfull w hold
        · rw [List.mem_singleton.mp hnew]
          rw [List.length_append, List.length_singleton] at h ⊢
          omega
    case isFalse h =>
      rw [Option.toList_none, List.append_nil, ← List.append_assoc, hjoined]
      exact ⟨rfl, hfull, Int.not_le.mp h⟩

end Cut

theorem emissions_concat (window : List (Item V) → List (Item V)) (xs : List (Item V))
    (x : Item V) : emissions window (xs ++ [x]) = emissions window xs ++ [window (xs ++ [x])] := by
  unfold emissions
  rw [List.length_append, List.length_singleton, List.range_succ, List.map_append,
    List.map_singleton]
  congr 1
  · refine List.map_congr_left fun i hi => ?_
    rw [List.take_append_of_le_length (List.mem_range.mp hi)]
  · rw [List.take_of_length_le (by simp)]

variable {cfg : Config} {xs : List (Item V)}

/-- The buffer holds the window of the items so far when the window of the items with a new one
is what the node makes of it. -/
theorem sliding_run {window : List (Item V) → List (Item V)} (hnil : window [] = [])
    (hstep : ∀ ys x, ys ++ [x] <+: xs → ∀ g : Group V, g.items = window ys →
      (g.process cfg x).1.items = window (ys ++ [x]) ∧
        (g.process cfg x).2 = some (window (ys ++ [x]))) :
    (groupRun cfg xs).1.items = window xs ∧ (groupRun cfg xs).2 = emissions window xs := by
  induction xs using List.reverseRecOn with
  | nil => exact ⟨hnil.symm, rfl⟩
  | append_singleton xs x ih =>
    obtain ⟨hitems, hwindows⟩ :=
      ih fun ys y hys => hstep ys y (hys.trans (List.prefix_append _ _))
    obtain ⟨hitems', hclosed⟩ := hstep xs x (List.prefix_refl _) _ hitems
    rw [groupRun_concat, emissions_concat, hwindows, hclosed]
    exact ⟨hitems', rfl⟩

theorem latest_concat {count : Int} (hcount : 0 < count) (xs : List (Item V)) (x : Item V) :
    latest count (xs ++ [x]) =
      if count < (latest count xs ++ [x]).length then
        (latest count xs ++ [x]).drop ((latest count xs ++ [x]).length - count).toNat
      else latest count xs ++ [x] := by
  have hdrop : latest count xs ++ [x] = (xs ++ [x]).drop (xs.length - count).toNat := by
    rw [latest, List.drop_append_of_le_length (by omega)]
  rw [hdrop, latest, List.drop_drop, List.length_drop, List.length_append]
  split
  all_goals
    congr 1
    omega

theorem dropWhile_eq_filter {cutoff : Int} (hsorted : xs.Pairwise fun y z => y.time ≤ z.time) :
    xs.dropWhile (·.time < cutoff) = xs.filter (cutoff ≤ ·.time) := by
  induction xs with
  | nil => rfl
  | cons y ys ih =>
    obtain ⟨hy, hys⟩ := List.pairwise_cons.mp hsorted
    by_cases hold : y.time < cutoff
    · rw [List.dropWhile_cons_of_pos (by simpa using hold),
        List.filter_cons_of_neg (by simpa using hold), ih hys]
    · rw [List.dropWhile_cons_of_neg (by simpa using hold), eq_comm, List.filter_eq_self]
      intro z hz
      have hyz : y.time ≤ z.time := by
        rcases List.mem_cons.mp hz with rfl | hz
        · exact Int.le_refl _
        · exact hy z hz
      exact decide_eq_true (by omega)

theorem recent_concat {size : Int} {x : Item V}
    (hsorted : (xs ++ [x]).Pairwise fun y z => y.time ≤ z.time) :
    recent size (xs ++ [x]) =
      (recent size xs ++ [x]).dropWhile (·.time < x.time - size) := by
  have hsub : (recent size xs ++ [x]).Sublist (xs ++ [x]) := List.filter_sublist.append_right _
  have hlast : ∀ z ∈ xs.getLast?, z.time ≤ x.time := fun z hz =>
    (List.pairwise_append.mp hsorted).2.2 z (List.mem_of_getLast? hz) x (List.mem_singleton_self x)
  rw [dropWhile_eq_filter (hsorted.sublist hsub), List.filter_append, recent, recent,
    List.filter_append, List.filter_filter]
  -- what is recent for `x` was recent for the items before it
  congr 1
  · refine List.filter_congr fun y _ => ?_
    rw [List.getLast?_concat, Bool.eq_iff_iff]
    simp only [Option.mem_some_iff, forall_eq', decide_eq_true_eq, Bool.and_eq_true]
    exact ⟨fun h => ⟨by omega, fun z hz => by have := hlast z hz; omega⟩, fun h => by omega⟩
  · refine List.filter_congr fun y _ => ?_
    rw [List.getLast?_concat, Bool.eq_iff_iff]
    simp only [Option.mem_some_iff, forall_eq', decide_eq_true_eq]
    omega

theorem pos_of_check {n : Int} {e : ConfigError}
    (h : (if n ≤ 0 then .error e else .ok () : Except ConfigError Unit) = .ok ()) : 0 < n := by
  split at h
  case isTrue => cases h
  case isFalse hn => exact Int.not_le.mp hn

theorem exact_of_inRange (hcheck : cfg.check = .ok ()) (hrange : cfg.InRange)
    (hsorted : xs.Pairwise fun y z => y.time ≤ z.time) :
    Exact cfg (groupRun cfg xs).2 (groupRun cfg xs).1.items xs := by
  obtain ⟨windowType, windowBy, sizeMs, count, sessionGapMs⟩ := cfg
  cases windowType with
  | tumbling =>
    cases windowBy with
    | time => exact (cut_tumbling rfl rfl (pos_of_check hcheck) hrange xs).1
    | count => exact count_tumbling rfl (by simp) (pos_of_check hcheck) xs
    | other name => cases hcheck
  | sliding =>
    cases windowBy with
    | time =>
      refine (sliding_run rfl fun ys x hys g hitems => ?_).2
      have hsize : 0 < sizeMs := pos_of_check hcheck
      have hcutoff : wrap64 (-sizeMs * 1000000) = -(sizeMs * 1000000) := by
        have hmax : sizeMs ≤ 9223372036854 := hrange
        rw [Int.neg_mul]
        exact wrap64_eq_self (by omega) (by omega)
      rw [recent_concat (hsorted.sublist hys.sublist), ← hitems]
      simp only [Group.process, if_true, hcutoff, ← Int.sub_eq_add_neg, and_self]
    | count =>
      have hnil : latest count ([] : List (Item V)) = [] := List.drop_nil
      refine (sliding_run hnil fun ys x _ g hitems => ?_).2
      rw [latest_concat (pos_of_check hcheck), ← hitems]
      simp only [Group.process, reduceCtorEq, if_false, and_self]
    | other name => cases hcheck
  | session => exact (cut_session rfl (pos_of_check hcheck) hrange xs).1
  | other name => trivial

/-- Two items, the second at `t`. -/
def pair [Inhabited V] (t : Int) : List (Item V) := [⟨default, 0⟩, ⟨default, t⟩]

theorem not_cut_pair [Inhabited V] {cuts : List (Item V) → Item V → Prop} {t : Int}
    (hcut : ¬ cuts [⟨default, 0⟩] ⟨default, t⟩) :
    ¬ CutBy cuts [[⟨default, 0⟩]] [⟨default, t⟩] (pair t) := by
  intro h
  obtain ⟨⟨-, x, hx, hcuts⟩, -⟩ := List.isChain_cons_cons.mp h.between
  cases hx
  exact hcut hcuts

theorem sliding_drops (htype : cfg.windowType = .sliding) (hby : cfg.windowBy = .time)
    {x y : Item V} (hne : x ≠ y) (hold : x.time < y.time + wrap64 (-cfg.sizeMs * 1000000)) :
    ∃ w, (groupRun cfg [x, y]).2.getLast? = some w ∧ x ∉ w := by
  simp only [groupRun, List.foldl, Group.process, htype, hby, Group.empty, List.nil_append]
  refine ⟨_, rfl, fun hx => ?_⟩
  rw [List.dropWhile_append_of_pos] at hx
  · exact hne (List.mem_singleton.mp ((List.dropWhile_sublist _).mem hx))
  · intro z hz
    rw [List.mem_singleton.mp ((List.dropWhile_sublist _).mem hz)]
    exact decide_eq_true hold

theorem inRange_of_exact [Inhabited V]
    (hexact : ∀ t, 0 ≤ t →
      Exact cfg (groupRun cfg (pair t)).2 (groupRun cfg (pair t)).1.items
        (pair t : List (Item V))) :
    cfg.InRange := by
  obtain ⟨windowType, windowBy, sizeMs, count, sessionGapMs⟩ := cfg
  cases windowType with
  | tumbling =>
    cases windowBy with
    | time =>
      by_contra hbig
      have hearly : milliseconds sizeMs ≤ elapsed 0x7fffffffffffffff 0 := by
        unfold milliseconds wrap64 elapsed
        omega
      have hcut := hexact 0x7fffffffffffffff (by decide)
      simp [groupRun, pair, Group.process, Group.empty, hearly] at hcut
      refine not_cut_pair ?_ hcut
      rintro ⟨first, ⟨⟩, hlate⟩
      have hsize : ¬ sizeMs ≤ 9223372036854 := hbig
      dsimp only at hlate
      omega
    | count | other => trivial
  | sliding =>
    cases windowBy with
    | time =>
      by_contra hbig
      have hsize : ¬ sizeMs ≤ 9223372036854 := hbig
      have hlow := le_wrap64 (-sizeMs * 1000000)
      have hwindows : _ = emissions (recent (sizeMs * 1000000)) _ :=
        hexact 0x8000000000000001 (by decide)
      obtain ⟨w, hw, hdropped⟩ := @sliding_drops V
        ⟨.sliding, .time, sizeMs, count, sessionGapMs⟩ rfl rfl ⟨default, 0⟩
        ⟨default, 0x8000000000000001⟩ (by simp) (by dsimp only; omega)
      rw [← pair, hwindows] at hw
      cases hw
      refine hdropped (List.mem_filter.mpr ⟨List.mem_cons_self, decide_eq_true fun x hx => ?_⟩)
      obtain rfl : (⟨default, 0x8000000000000001⟩ : Item V) = x := Option.some.inj hx
      dsimp only
      omega
    | count | other => trivial
  | session =>
    by_contra hbig
    have hearly : milliseconds sessionGapMs < elapsed 0x7fffffffffffffff 0 := by
      unfold milliseconds wrap64 elapsed
      omega
    have hcut := hexact 0x7fffffffffffffff (by decide)
    simp [groupRun, pair, Group.process, Group.empty, hearly] at hcut
    refine not_cut_pair ?_ hcut
    rintro ⟨last, hlast, hapart⟩
    rw [List.getLast?_singleton] at hlast
    cases hlast
    have hgap : ¬ sessionGapMs ≤ 9223372036854 := hbig
    dsimp only at hapart
    omega
  | other name => trivial

/-- Windows are exact and independent of other groups if and only if the durations are in range. -/
theorem windows_exact_iff [Inhabited V] {cfg : Config} (hcheck : cfg.check = .ok ()) :
    (∀ inputs : List (Input V), inputs.Pairwise (fun a b => a.item.time ≤ b.item.time) → ∀ key,
      Exact cfg ((Node.run cfg inputs).windows key) ((Node.run cfg inputs).groups key).items
          (itemsOf key inputs) ∧
        (Node.run cfg inputs).windows key =
          (Node.run cfg (inputs.filter (·.key = key))).windows key) ↔
      cfg.InRange := by
  constructor
  · intro h
    refine inRange_of_exact (V := V) fun t ht => ?_
    have hexact := (h [⟨"", default, 0⟩, ⟨"", default, t⟩] (by simpa using ht) "").1
    rw [(run_eq_groupRun _ _ _).1, (run_eq_groupRun _ _ _).2] at hexact
    exact hexact
  · intro hrange inputs hsorted key
    rw [(run_eq_groupRun _ _ _).1, (run_eq_groupRun _ _ _).2, (run_eq_groupRun _ _ _).2]
    refine ⟨exact_of_inRange hcheck hrange ?_, ?_⟩
    · rw [itemsOf, List.pairwise_map]
      exact hsorted.sublist List.filter_sublist
    · simp only [itemsOf, List.filter_filter, Bool.and_self]

def tumblingBy (sizeMs : Int) : Config := ⟨.tumbling, .time, sizeMs, 0, 0⟩

def secondApart : List (Input Nat) := [⟨"a", 1, 0⟩, ⟨"b", 2, 500000000⟩, ⟨"a", 3, 1000000000⟩]

theorem second_windows_exact :
    (tumblingBy 1000).check = .ok () ∧
      Exact (tumblingBy 1000) ((Node.run (tumblingBy 1000) secondApart).windows "a")
        ((Node.run (tumblingBy 1000) secondApart).groups "a").items
        [⟨1, 0⟩, ⟨3, 1000000000⟩] :=
  have hrange : (tumblingBy 1000).InRange := show (1000 : Int) ≤ 9223372036854 by decide
  ⟨rfl, ((windows_exact_iff rfl).mpr hrange secondApart (by decide) "a").1⟩

theorem long_window_closed_at_once :
    (tumblingBy 9223372036855).check = .ok () ∧
      ¬ Exact (tumblingBy 9223372036855)
        ((Node.run (tumblingBy 9223372036855) [⟨"a", 0, 0⟩, ⟨"a", 0, 1⟩]).windows "a")
        ((Node.run (tumblingBy 9223372036855) [⟨"a", 0, 0⟩, ⟨"a", 0, 1⟩]).groups "a").items
        [⟨0, 0⟩, ⟨0, 1⟩] := by
  refine ⟨rfl, @not_cut_pair Nat _ _ 1 ?_⟩
  rintro ⟨first, ⟨⟩, hlate⟩
  exact absurd hlate (by decide)

end DataPipe.Nodes.Windows
