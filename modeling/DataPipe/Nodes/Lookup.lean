import Mathlib.Data.List.Induction
import DataPipe.Foundation.Duration
import DataPipe.Foundation.Keyed

/-!
# The cache of a lookup node

`lookupCached` and `store` of `engine/nodes/lookup/lookup.go`.  Times are nanoseconds since 1970,
as `time.Now` reads them.
-/

namespace DataPipe.Nodes.Lookup

open DataPipe.Foundation

def defaultMaxEntries : Int := 1000

/-- The zero `time.Time`, which stands for an entry that never expires. -/
def zeroTime : Int := -62135596800000000000

structure Config where
  ttlMs : Int
  maxEntries : Int

def Config.new (cfg : Config) : Config :=
  { cfg with maxEntries := if cfg.maxEntries ≤ 0 then defaultMaxEntries else cfg.maxEntries }

structure CacheEntry (V : Type) where
  value : V
  expiresAt : Int

structure Node (V : Type) where
  cache : String → Option (CacheEntry V) := fun _ => none
  cacheKeys : List String := []

/-- A call: what `fetch` would return, and the clock when the cache is read and written. -/
structure Call (V : Type) where
  key : String
  fetched : Except String (Option V)
  now : Nat
  storedAt : Nat

structure Fetch (V : Type) where
  key : String
  value : V
  storedAt : Nat

variable {V : Type} (cfg : Config)

def evict (keys : List String) (cache : String → Option (CacheEntry V)) :
    List String × (String → Option (CacheEntry V)) :=
  match keys with
  | [] => ([], cache)
  | oldest :: keys =>
    if cfg.maxEntries < (oldest :: keys).length then
      evict keys (Function.update cache oldest none)
    else (oldest :: keys, cache)

def Fetch.entry (f : Fetch V) : CacheEntry V :=
  ⟨f.value, if 0 < cfg.ttlMs then f.storedAt + milliseconds cfg.ttlMs else zeroTime⟩

namespace Node

def store (n : Node V) (f : Fetch V) : Node V :=
  let kept := if (n.cache f.key).isSome then (n.cacheKeys, n.cache)
    else evict cfg (n.cacheKeys ++ [f.key]) n.cache
  ⟨Function.update kept.2 f.key (some (f.entry cfg)), kept.1⟩

def hit (n : Node V) (c : Call V) : Option V :=
  match n.cache c.key with
  | some e => if e.expiresAt = zeroTime ∨ c.now < e.expiresAt then some e.value else none
  | none => none

/-- The successful fetch of a call that is not answered from the cache. -/
def fetch (n : Node V) (c : Call V) : Option (Fetch V) :=
  match n.hit c, c.fetched with
  | none, .ok (some value) => some ⟨c.key, value, c.storedAt⟩
  | _, _ => none

def lookupCached (n : Node V) (c : Call V) : Node V × Except String (Option V) :=
  match n.hit c with
  | some value => (n, .ok (some value))
  | none => (((n.fetch c).map (n.store cfg)).getD n, c.fetched)

end Node

/-- The node after the calls, and their successful fetches. -/
def run (calls : List (Call V)) : Node V × List (Fetch V) :=
  calls.foldl (fun s c => ((s.1.lookupCached cfg c).1, s.2 ++ (s.1.fetch c).toList)) ({}, [])

/-! ## A bounded queue of keys -/

/-- A new key is put at the end, and displaces the oldest one when there is no room. -/
inductive Turn (maxEntries : Int) : Option String → List String → List String → Prop
  | kept {stored keys} : Turn maxEntries stored keys keys
  | added {key keys} : key ∉ keys → (keys.length : Int) < maxEntries →
    Turn maxEntries (some key) keys (keys ++ [key])
  | displaced {key oldest keys} : key ∉ oldest :: keys →
    ((oldest :: keys).length : Int) = maxEntries →
    Turn maxEntries (some key) (oldest :: keys) (keys ++ [key])

def newest (fetches : List (Fetch V)) (key : String) : Option (Fetch V) :=
  (fetches.filter fun f => f.key = key).getLast?

/-- The keys are those of the cache, which holds the newest fetch of each. -/
structure Holds (n : Node V) (fetches : List (Fetch V)) : Prop where
  nodup : n.cacheKeys.Nodup
  keys : ∀ key, key ∈ n.cacheKeys ↔ (n.cache key).isSome = true
  bounded : (n.cacheKeys.length : Int) ≤ cfg.maxEntries
  values : ∀ key e, n.cache key = some e → ∃ f, newest fetches key = some f ∧ e = f.entry cfg

variable {cfg} {n : Node V} {fetches : List (Fetch V)}

theorem evict_of_le {keys : List String} {cache : String → Option (CacheEntry V)}
    (h : (keys.length : Int) ≤ cfg.maxEntries) : evict cfg keys cache = (keys, cache) := by
  cases keys with
  | nil => rfl
  | cons oldest keys => exact if_neg (Int.not_lt.mpr h)

theorem newest_concat (f : Fetch V) (key : String) :
    newest (fetches ++ [f]) key = if key = f.key then some f else newest fetches key := by
  by_cases h : f.key = key
  · simp [newest, h]
  · simp [newest, h, Ne.symm h]

theorem Holds.evict (h : Holds cfg n fetches) (hpos : 0 < cfg.maxEntries) {key : String}
    (hnew : key ∉ n.cacheKeys) : ∃ keys cache,
      evict cfg (n.cacheKeys ++ [key]) n.cache = (keys ++ [key], cache) ∧
      Holds cfg ⟨cache, keys⟩ fetches ∧ (keys.length : Int) < cfg.maxEntries ∧ key ∉ keys ∧
      Turn cfg.maxEntries (some key) n.cacheKeys (keys ++ [key]) := by
  rcases Int.lt_or_eq_of_le h.bounded with hroom | hfull
  · exact ⟨n.cacheKeys, n.cache, evict_of_le (by simp; omega), h, hroom, hnew, .added hnew hroom⟩
  obtain ⟨cache, _ | ⟨oldest, keys⟩⟩ := n
  · simp at hfull
    omega
  have hnodup := List.nodup_cons.mp h.nodup
  have hlength : (keys.length : Int) + 1 = cfg.maxEntries := by simpa using hfull
  refine ⟨keys, Function.update cache oldest none, ?_, ⟨hnodup.2, ?_, by simp; omega, ?_⟩,
    by omega, fun hmem => hnew (.tail _ hmem), .displaced hnew hfull⟩
  · rw [List.cons_append, Lookup.evict, if_pos (by simp; omega), evict_of_le (by simp; omega)]
  · intro other
    by_cases heq : other = oldest
    · simp [heq, hnodup.1]
    · simpa [Function.update_of_ne heq, heq] using h.keys other
  · intro other e he
    simp only [Function.update_apply] at he
    split at he
    · contradiction
    · exact h.values other e he

theorem Holds.store (h : Holds cfg n fetches) (hpos : 0 < cfg.maxEntries) (f : Fetch V) :
    Holds cfg (n.store cfg f) (fetches ++ [f]) ∧
      Turn cfg.maxEntries (some f.key) n.cacheKeys (n.store cfg f).cacheKeys := by
  have hvalues {n : Node V} (h : Holds cfg n fetches) (key : String) (e : CacheEntry V)
      (he : Function.update n.cache f.key (some (f.entry cfg)) key = some e) :
      ∃ g, newest (fetches ++ [f]) key = some g ∧ e = g.entry cfg := by
    rw [newest_concat]
    rw [Function.update_apply] at he
    split at he
    next hkey => exact ⟨f, if_pos hkey, (Option.some.inj he).symm⟩
    next hkey => exact if_neg hkey ▸ h.values key e he
  by_cases hold : f.key ∈ n.cacheKeys
  · rw [Node.store, if_pos ((h.keys _).mp hold)]
    refine ⟨⟨h.nodup, ?_, h.bounded, hvalues h⟩, .kept⟩
    intro key
    by_cases hkey : key = f.key
    · simp [hkey, hold]
    · simp [Function.update_of_ne hkey, h.keys]
  · obtain ⟨keys, cache, hevict, hkept, hroom, hnew, hturn⟩ := h.evict hpos hold
    rw [Node.store, if_neg (mt (h.keys _).mpr hold), hevict]
    refine ⟨⟨nodup_concat_of_notMem hkept.nodup hnew, ?_, by simp; omega, hvalues hkept⟩, hturn⟩
    intro key
    by_cases hkey : key = f.key
    · simp [hkey]
    · simpa [Function.update_of_ne hkey, hkey] using hkept.keys key

theorem Holds.lookupCached (h : Holds cfg n fetches) (hpos : 0 < cfg.maxEntries) (c : Call V) :
    Holds cfg (n.lookupCached cfg c).1 (fetches ++ (n.fetch c).toList) ∧
      Turn cfg.maxEntries ((n.fetch c).map Fetch.key) n.cacheKeys
        (n.lookupCached cfg c).1.cacheKeys := by
  cases hhit : n.hit c with
  | some value => simpa [Node.lookupCached, Node.fetch, hhit] using ⟨h, .kept⟩
  | none =>
    cases hfetch : n.fetch c with
    | none => simpa [Node.lookupCached, hhit, hfetch] using ⟨h, .kept⟩
    | some f => simpa [Node.lookupCached, hhit, hfetch] using h.store hpos f

theorem holds_run (cfg : Config) (calls : List (Call V)) :
    0 < cfg.new.maxEntries ∧ Holds cfg.new (run cfg.new calls).1 (run cfg.new calls).2 := by
  have hpos : 0 < cfg.new.maxEntries := by
    simp only [Config.new, defaultMaxEntries]
    split <;> omega
  refine ⟨hpos, ?_⟩
  induction calls using List.reverseRecOn with
  | nil => exact ⟨.nil, by simp [run], by simp [run]; omega, by simp [run]⟩
  | append_singleton calls c ih =>
    rw [run, List.foldl_append]
    exact (ih.lookupCached hpos c).1

end DataPipe.Nodes.Lookup
