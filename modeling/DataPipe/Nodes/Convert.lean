import DataPipe.Foundation.Utf8

/-!
# Character encodings

The pair UTF-8 and Latin-1 of `engine/nodes/convert/encoding.go`, over Go strings
as byte strings.
-/

namespace DataPipe.Nodes.Convert

open DataPipe.Foundation

inductive Encoding where
  | utf8
  | latin1
  | other (name : String)
  deriving DecidableEq, Repr

inductive EncodingError where
  | unsupported (source target : Encoding)
  | noLatin1 (dropped : Nat)
  deriving DecidableEq, Repr

def latin1ToUTF8 (s : List UInt8) : List UInt8 :=
  encodeRunes (s.map fun b => .ofNat b.toNat)

def latin1Step (acc : List UInt8 × Nat) (r : Char) : List UInt8 × Nat :=
  if 0xFF < r.toNat then (acc.1, acc.2 + 1)
  else (acc.1 ++ [UInt8.ofNat r.toNat], acc.2)

def utf8ToLatin1 (s : List UInt8) : Except EncodingError (List UInt8) :=
  let (out, dropped) := (runes s).foldl latin1Step ([], 0)
  if 0 < dropped then .error (.noLatin1 dropped)
  else .ok out

def convertEncoding (s : List UInt8) (source target : Encoding) :
    Except EncodingError (List UInt8) :=
  if source = target then .ok s
  else
    match source, target with
    | .utf8, .latin1 => utf8ToLatin1 s
    | .latin1, .utf8 => .ok (latin1ToUTF8 s)
    | _, _ => .error (.unsupported source target)

theorem foldl_latin1Step (cs : List Char) (out : List UInt8) (dropped : Nat) :
    cs.foldl latin1Step (out, dropped) =
      (out ++ (cs.filter (·.toNat ≤ 0xFF)).map (fun c => UInt8.ofNat c.toNat),
        dropped + (cs.filter (0xFF < ·.toNat)).length) := by
  induction cs generalizing out dropped with
  | nil => simp
  | cons c cs ih =>
    rw [List.foldl_cons, latin1Step]
    by_cases hc : 0xFF < c.toNat
    · have hle : ¬ c.toNat ≤ 0xFF := by omega
      rw [if_pos hc, ih, List.filter_cons_of_neg (by simpa using hle),
        List.filter_cons_of_pos (by simpa using hc), List.length_cons]
      simp only [Prod.mk.injEq, true_and]
      omega
    · have hle : c.toNat ≤ 0xFF := by omega
      rw [if_neg hc, ih, List.filter_cons_of_pos (by simpa using hle),
        List.filter_cons_of_neg (by simpa using hc), List.map_cons, List.append_assoc]
      rfl

theorem utf8ToLatin1_eq_ok {s u : List UInt8} :
    utf8ToLatin1 s = .ok u ↔
      (∀ c ∈ runes s, c.toNat ≤ 0xFF) ∧ u = (runes s).map (fun c => UInt8.ofNat c.toNat) := by
  rw [utf8ToLatin1, foldl_latin1Step, Nat.zero_add]
  dsimp only
  by_cases hall : ∀ c ∈ runes s, c.toNat ≤ 0xFF
  · have hnone : (runes s).filter (0xFF < ·.toNat) = [] := by
      rw [List.filter_eq_nil_iff]
      intro c hc
      have := hall c hc
      simpa using this
    have hkeep : (runes s).filter (·.toNat ≤ 0xFF) = runes s := by
      rw [List.filter_eq_self]
      intro c hc
      simpa using hall c hc
    rw [hnone, hkeep]
    constructor
    · intro h
      cases h
      exact ⟨hall, rfl⟩
    · rintro ⟨-, rfl⟩
      rfl
  · have hsome : 0 < ((runes s).filter (0xFF < ·.toNat)).length := by
      simp only [Classical.not_forall] at hall
      obtain ⟨c, hc, hhigh⟩ := hall
      exact List.length_pos_of_mem (List.mem_filter.mpr ⟨hc, by simpa using hhigh⟩)
    rw [if_pos hsome]
    constructor
    · intro h
      cases h
    · rintro ⟨h, -⟩
      exact absurd h hall

theorem toNat_ofNat_byte (b : UInt8) : (Char.ofNat b.toNat).toNat = b.toNat := by
  have hb : b.toNat < 256 := b.toNat_lt
  exact toNat_val_ofNat (.inl (by omega))

theorem runeError_notMem {cs : List Char} (hlow : ∀ c ∈ cs, c.toNat ≤ 0xFF) : runeError ∉ cs := by
  intro hmem
  exact absurd (hlow _ hmem) (by decide)

theorem utf8ToLatin1_latin1ToUTF8 (s : List UInt8) : utf8ToLatin1 (latin1ToUTF8 s) = .ok s := by
  rw [utf8ToLatin1_eq_ok, latin1ToUTF8, runes_encodeRunes]
  constructor
  · intro c hc
    obtain ⟨b, -, rfl⟩ := List.mem_map.mp hc
    have hb : b.toNat < 256 := b.toNat_lt
    rw [toNat_ofNat_byte]
    omega
  · rw [List.map_map]
    refine (List.map_id' s).symm.trans (List.map_congr_left ?_)
    intro b _
    rw [Function.comp_apply, toNat_ofNat_byte, UInt8.ofNat_toNat]

theorem latin1ToUTF8_of_utf8ToLatin1 {t u : List UInt8} (h : utf8ToLatin1 t = .ok u) :
    latin1ToUTF8 u = t := by
  obtain ⟨hlow, rfl⟩ := utf8ToLatin1_eq_ok.mp h
  have hkept : (runes t).map (fun c => Char.ofNat (UInt8.ofNat c.toNat).toNat) = runes t := by
    refine (List.map_congr_left ?_).trans (List.map_id' _)
    intro c hc
    have := hlow c hc
    rw [toNat_ofNat_of_lt (by omega), Char.ofNat_toNat]
  calc latin1ToUTF8 ((runes t).map fun c => UInt8.ofNat c.toNat)
      = encodeRunes ((runes t).map fun c => Char.ofNat (UInt8.ofNat c.toNat).toNat) := by
        rw [latin1ToUTF8, List.map_map]
        rfl
    _ = encodeRunes (runes t) := by rw [hkept]
    _ = t := encodeRunes_runes (runeError_notMem hlow)

def ValidUTF8 (t : List UInt8) : Prop := ∃ cs, encodeRunes cs = t

theorem utf8ToLatin1_fails_iff (t : List UInt8) :
    (∃ e, utf8ToLatin1 t = .error e) ↔
      ¬ ValidUTF8 t ∨ ∃ cs, encodeRunes cs = t ∧ ∃ c ∈ cs, 0xFF < c.toNat := by
  have hfails : (∃ e, utf8ToLatin1 t = .error e) ↔ ∃ c ∈ runes t, 0xFF < c.toNat := by
    constructor
    · rintro ⟨e, he⟩
      by_contra hnone
      simp only [not_exists, not_and, Nat.not_lt] at hnone
      rw [utf8ToLatin1_eq_ok.mpr ⟨hnone, rfl⟩] at he
      cases he
    · rintro ⟨c, hc, hhigh⟩
      cases hresult : utf8ToLatin1 t with
      | error e => exact ⟨e, rfl⟩
      | ok u =>
        have := (utf8ToLatin1_eq_ok.mp hresult).1 c hc
        omega
  rw [hfails]
  constructor
  · rintro ⟨c, hc, hhigh⟩
    by_cases hvalid : ValidUTF8 t
    · obtain ⟨cs, rfl⟩ := hvalid
      rw [runes_encodeRunes] at hc
      exact .inr ⟨cs, rfl, c, hc, hhigh⟩
    · exact .inl hvalid
  · rintro (hinvalid | ⟨cs, rfl, c, hc, hhigh⟩)
    · -- Without a rune above U+00FF there is no replacement character either.
      by_contra hnone
      simp only [not_exists, not_and, Nat.not_lt] at hnone
      exact hinvalid ⟨runes t, encodeRunes_runes (runeError_notMem hnone)⟩
    · rw [runes_encodeRunes]
      exact ⟨c, hc, hhigh⟩

/-- Both conversions are inverse to each other, and the one to Latin-1 fails on what it cannot
represent. -/
theorem latin1_exact :
    (∀ s, utf8ToLatin1 (latin1ToUTF8 s) = .ok s) ∧
    (∀ t u, utf8ToLatin1 t = .ok u → latin1ToUTF8 u = t) ∧
    ∀ t, (∃ e, utf8ToLatin1 t = .error e) ↔
      ¬ ValidUTF8 t ∨ ∃ cs, encodeRunes cs = t ∧ ∃ c ∈ cs, 0xFF < c.toNat :=
  ⟨utf8ToLatin1_latin1ToUTF8, fun _ _ => latin1ToUTF8_of_utf8ToLatin1, utf8ToLatin1_fails_iff⟩

/-- The letter é. -/
theorem eAcute_read_back :
    utf8ToLatin1 [0xC3, 0xA9] = .ok [0xE9] ∧ latin1ToUTF8 [0xE9] = [0xC3, 0xA9] := by
  have hsucceeds : utf8ToLatin1 [0xC3, 0xA9] = .ok [0xE9] := by decide +kernel
  exact ⟨hsucceeds, latin1_exact.2.1 _ _ hsucceeds⟩

end DataPipe.Nodes.Convert
