import Mathlib.Data.List.Basic

/-!
# UTF-8 as Go iterates over it

`range` over a string decodes one rune after the other.  Bytes that begin no
encoded character (a stray continuation byte, an overlong form, a surrogate, a
truncated sequence) give the replacement character and are passed one at a time.
-/

namespace DataPipe.Foundation

def runeError : Char := Char.ofNat 0xFFFD

/-- The character whose encoding begins the bytes, and what follows it. -/
def decodeRune? (s : List UInt8) : Option (Char × List UInt8) :=
  (s.toByteArray.utf8DecodeChar? 0).map fun c => (c, s.drop c.utf8Size)

def runesFrom : Nat → List UInt8 → List Char
  | 0, _ => []
  | _ + 1, [] => []
  | fuel + 1, b0 :: rest =>
    match decodeRune? (b0 :: rest) with
    | some (c, after) => c :: runesFrom fuel after
    | none => runeError :: runesFrom fuel rest

/-- The runes of `range s`; each takes at least one byte. -/
def runes (s : List UInt8) : List Char := runesFrom s.length s

/-- `string(runes)`. -/
def encodeRunes (cs : List Char) : List UInt8 := cs.flatMap String.utf8EncodeChar

/-- `unicode.IsSpace`. -/
def spaceRunes : List Char :=
  [0x09, 0x0A, 0x0B, 0x0C, 0x0D, 0x20, 0x85, 0xA0, 0x1680, 0x2000, 0x2001, 0x2002, 0x2003, 0x2004,
    0x2005, 0x2006, 0x2007, 0x2008, 0x2009, 0x200A, 0x2028, 0x2029, 0x202F, 0x205F, 0x3000].map
    Char.ofNat

def trimSpaceLeft : Nat → List UInt8 → List UInt8
  | 0, s => s
  | fuel + 1, s =>
    match spaceRunes.find? (fun c => (String.utf8EncodeChar c).isPrefixOf s) with
    | some c => trimSpaceLeft fuel (s.drop c.utf8Size)
    | none => s

def trimSpaceRight : Nat → List UInt8 → List UInt8
  | 0, s => s
  | fuel + 1, s =>
    match spaceRunes.find? (fun c => (String.utf8EncodeChar c).isSuffixOf s) with
    | some c => trimSpaceRight fuel (s.take (s.length - c.utf8Size))
    | none => s

/-- `strings.TrimSpace`. -/
def trimSpace (s : List UInt8) : List UInt8 :=
  let s := trimSpaceLeft s.length s
  trimSpaceRight s.length s

theorem toNat_val_ofNat {n : Nat} (h : n.isValidChar) : (Char.ofNat n).val.toNat = n := by
  rw [Char.ofNat, dif_pos h]
  rfl

theorem toNat_ofNat_of_lt {n : Nat} (h : n < 256) : (UInt8.ofNat n).toNat = n := by
  rw [UInt8.toNat_ofNat']
  omega

variable {rest s : List UInt8} (c : Char) (cs : List Char)

theorem eq_encode_of_decodeRune? {c : Char} (h : decodeRune? s = some (c, rest)) :
    s = String.utf8EncodeChar c ++ rest := by
  obtain ⟨c', hdecode, hpair⟩ := Option.map_eq_some_iff.mp h
  obtain ⟨rfl, rfl⟩ := Prod.mk.inj hpair
  have hsplit := congrArg (·.data.toList) (ByteArray.eq_of_utf8DecodeChar?_eq_some hdecode)
  simp only [ByteArray.data_append, List.data_toByteArray, Array.toList_append,
    ByteArray.data_extract, Array.toList_extract, List.size_toByteArray,
    List.extract_eq_take_drop] at hsplit
  rwa [List.take_of_length_le (Nat.le_of_eq List.length_drop)] at hsplit

theorem decodeRune?_encode (rest : List UInt8) :
    decodeRune? (String.utf8EncodeChar c ++ rest) = some (c, rest) := by
  have hbytes : (String.utf8EncodeChar c ++ rest).toByteArray =
      [c].utf8Encode ++ rest.toByteArray := by
    rw [List.toByteArray_append, List.utf8Encode, List.flatMap_singleton]
  rw [decodeRune?, hbytes, List.utf8DecodeChar?_utf8Encode_singleton_append, Option.map_some,
    ← String.length_utf8EncodeChar, List.drop_left]

@[simp] theorem encodeRunes_cons :
    encodeRunes (c :: cs) = String.utf8EncodeChar c ++ encodeRunes cs := rfl

theorem utf8EncodeChar_ne_nil : String.utf8EncodeChar c ≠ [] := by
  apply List.ne_nil_of_length_pos
  rw [String.length_utf8EncodeChar]
  exact c.utf8Size_pos

theorem runesFrom_cons_of_some {b0 : UInt8} {after : List UInt8} {c : Char}
    (h : decodeRune? (b0 :: rest) = some (c, after)) (fuel : Nat) :
    runesFrom (fuel + 1) (b0 :: rest) = c :: runesFrom fuel after := by
  rw [runesFrom, h]

variable {fuel : Nat}

theorem runesFrom_encodeRunes (hfuel : (encodeRunes cs).length ≤ fuel) :
    runesFrom fuel (encodeRunes cs) = cs := by
  induction cs generalizing fuel with
  | nil =>
    cases fuel with
    | zero | succ => rfl
  | cons c cs ih =>
    obtain ⟨b0, bytes, hbytes⟩ := List.exists_cons_of_ne_nil (utf8EncodeChar_ne_nil c)
    have hdecode := decodeRune?_encode c (encodeRunes cs)
    rw [encodeRunes_cons, hbytes, List.cons_append, List.length_cons, List.length_append] at hfuel
    rw [encodeRunes_cons, hbytes, List.cons_append] at *
    cases fuel with
    | zero => omega
    | succ fuel => rw [runesFrom_cons_of_some hdecode, ih (by omega)]

theorem runes_encodeRunes : runes (encodeRunes cs) = cs :=
  runesFrom_encodeRunes cs (Nat.le_refl _)

theorem encodeRunes_runesFrom (hfuel : s.length ≤ fuel) (hclean : runeError ∉ runesFrom fuel s) :
    encodeRunes (runesFrom fuel s) = s := by
  induction fuel generalizing s with
  | zero =>
    rw [List.length_eq_zero_iff.mp (Nat.le_zero.mp hfuel)]
    rfl
  | succ fuel ih =>
    cases s with
    | nil => rfl
    | cons b0 rest =>
      rw [List.length_cons] at hfuel
      cases hdecode : decodeRune? (b0 :: rest) with
      | none =>
        rw [runesFrom, hdecode] at hclean
        exact absurd List.mem_cons_self hclean
      | some decoded =>
        obtain ⟨c, after⟩ := decoded
        rw [runesFrom_cons_of_some hdecode] at hclean ⊢
        have hsplit := eq_encode_of_decodeRune? hdecode
        have hafter : after.length ≤ fuel := by
          have hlength := congrArg List.length hsplit
          have hpos := List.length_pos_iff.mpr (utf8EncodeChar_ne_nil c)
          rw [List.length_cons, List.length_append] at hlength
          omega
        rw [encodeRunes_cons, ih hafter (List.not_mem_of_not_mem_cons hclean), ← hsplit]

theorem encodeRunes_runes (hclean : runeError ∉ runes s) : encodeRunes (runes s) = s :=
  encodeRunes_runesFrom (Nat.le_refl _) hclean

end DataPipe.Foundation
