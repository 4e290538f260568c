import Mathlib.Data.List.Basic

/-!
# Splitting a stream into frames

`extract` cuts the first frame off a buffer, or waits for more bytes.  When what
it cuts does not depend on the bytes that follow, the frames of a stream and what
is left of it do not depend on where the stream was cut into reads.
-/

namespace DataPipe.Foundation

variable {α : Type*} {extract : List α → Option (List α × List α)} {encode : List α → List α}

inductive Splits (extract : List α → Option (List α × List α)) :
    List α → List (List α) → List α → Prop where
  | done {buf : List α} (h : extract buf = none) : Splits extract buf [] buf
  | next {buf frame rest last : List α} {frames : List (List α)}
      (h : extract buf = some (frame, rest)) (hrest : Splits extract rest frames last) :
      Splits extract buf (frame :: frames) last

/-- A frame is encoded at the front of its buffer, takes room there, and is the same whatever
follows. -/
structure Cuts (extract : List α → Option (List α × List α)) (encode : List α → List α) : Prop where
  encoded : ∀ {buf frame rest}, extract buf = some (frame, rest) → encode frame ++ rest = buf
  shorter : ∀ {buf frame rest}, extract buf = some (frame, rest) → rest.length < buf.length
  stable : ∀ {buf frame rest}, extract buf = some (frame, rest) →
    ∀ more, extract (buf ++ more) = some (frame, rest ++ more)

theorem Cuts.of_iff (Whole : List α → Prop)
    (h : ∀ {buf frame rest},
      extract buf = some (frame, rest) ↔ Whole frame ∧ encode frame ++ rest = buf)
    (hroom : ∀ frame, Whole frame → 0 < (encode frame).length) : Cuts extract encode where
  encoded hsome := (h.mp hsome).2
  shorter hsome := by
    obtain ⟨hwhole, rfl⟩ := h.mp hsome
    have hpos := hroom _ hwhole
    rw [List.length_append]
    omega
  stable hsome more := by
    obtain ⟨hwhole, rfl⟩ := h.mp hsome
    exact h.mpr ⟨hwhole, (List.append_assoc _ _ _).symm⟩

namespace Splits

variable {buf rest last more : List α} {frames frames' : List (List α)}

theorem unique (h : Splits extract buf frames last) (h' : Splits extract buf frames' rest) :
    frames = frames' ∧ last = rest := by
  induction h generalizing frames' rest with
  | done hnone =>
    cases h' with
    | done _ => exact ⟨rfl, rfl⟩
    | next hsome _ =>
      rw [hnone] at hsome
      cases hsome
  | next hsome _ ih =>
    cases h' with
    | done hnone =>
      rw [hnone] at hsome
      cases hsome
    | next hsome' hrest' =>
      rw [hsome] at hsome'
      cases hsome'
      obtain ⟨rfl, rfl⟩ := ih hrest'
      exact ⟨rfl, rfl⟩

theorem append (hcuts : Cuts extract encode) (h : Splits extract buf frames last)
    (hmore : Splits extract (last ++ more) frames' rest) :
    Splits extract (buf ++ more) (frames ++ frames') rest := by
  induction h with
  | done _ => exact hmore
  | next hsome _ ih => exact .next (hcuts.stable hsome more) (ih hmore)

end Splits

end DataPipe.Foundation
