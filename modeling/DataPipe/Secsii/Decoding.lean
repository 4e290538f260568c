import DataPipe.Secsii.RoundTrip

/-!
# Decoding arbitrary bytes

Everything a call of `Decode` can do on any input: it reports an error, or it
consumes a front part of the input that spells the item it returns.  What it
reserves is charged to the bytes it has consumed.
-/

set_option linter.dupNamespace false

namespace DataPipe.Secsii

open DataPipe.Foundation

namespace Header

variable {format : Format} {n : Nat} {bytes : List UInt8}

theorem length_le (h : Header format n bytes) : 2 ≤ bytes.length ∧ bytes.length ≤ 4 := by
  obtain ⟨fb, lengthBytes, hlb, hne⟩ := h
  have hlt := length_lt_four fb
  have hpos := List.length_pos_iff.mpr hne
  rw [List.length_cons]
  omega

theorem lt_pow (h : Header format n bytes) : n < 256 ^ (bytes.length - 1) := by
  obtain ⟨fb, lengthBytes, -, -⟩ := h
  exact ofBigEndian_lt lengthBytes

theorem lt (h : Header format n bytes) : n < 2 ^ 24 := by
  have hpow : 256 ^ (bytes.length - 1) ≤ 256 ^ 3 := by
    have hlength := h.length_le
    exact Nat.pow_le_pow_right (by decide) (by omega)
  exact Nat.lt_of_lt_of_le h.lt_pow hpow

theorem length_rest_lt (h : Header format n bytes) (rest : List UInt8) :
    rest.length < (bytes ++ rest).length := by
  have hlength := h.length_le
  rw [List.length_append]
  omega

theorem length_header_le (h : Header format n bytes) : (header format n).length ≤ bytes.length := by
  obtain ⟨hlow, hhigh⟩ := h.length_le
  have hn := h.lt_pow
  rw [header, List.length_cons, length_lengthBytes, lengthBytesNeeded]
  split_ifs with hone htwo
  · omega
  · have hthree : bytes.length ≠ 2 := by
      intro heq
      rw [heq] at hn
      omega
    omega
  · have hthree : bytes.length ≠ 2 := by
      intro heq
      rw [heq] at hn
      omega
    have hfour : bytes.length ≠ 3 := by
      intro heq
      rw [heq] at hn
      omega
    omega

end Header

theorem readHeader_cases (data : List UInt8) :
    (∃ e, readHeader data = .fail (.error e)) ∨
      ∃ format n bytes rest, data = bytes ++ rest ∧ Header format n bytes ∧
        readHeader data = pure (format, n, rest) := by
  cases data with
  | nil => exact .inl ⟨.emptyItem, rfl⟩
  | cons fb tail =>
    have hindex : index (fb :: tail) 0 = pure fb := rfl
    by_cases hzero : (fb &&& 0x03).toNat = 0
    · refine .inl ⟨.noLengthBytes, ?_⟩
      rw [readHeader, if_neg (by simp), hindex, Metered.pure_bind, if_pos hzero]
    · by_cases hroom : (fb :: tail).length < 1 + (fb &&& 0x03).toNat
      · refine .inl ⟨.truncatedLength, ?_⟩
        rw [readHeader, if_neg (by simp), hindex, Metered.pure_bind, if_neg hzero, if_pos hroom]
      · have hlength : (tail.take (fb &&& 0x03).toNat).length = (fb &&& 0x03).toNat := by
          rw [List.length_cons] at hroom
          rw [List.length_take]
          omega
        have hne : tail.take (fb &&& 0x03).toNat ≠ [] :=
          List.ne_nil_of_length_pos (by omega)
        have hheader := Header.mk fb _ hlength hne
        have hsplit : fb :: tail =
            fb :: tail.take (fb &&& 0x03).toNat ++ tail.drop (fb &&& 0x03).toNat := by
          rw [List.cons_append, List.take_append_drop]
        refine .inr ⟨_, _, _, _, hsplit, hheader, ?_⟩
        nth_rewrite 1 [hsplit]
        exact readHeader_append hheader _

mutual

def Spells : Item → List UInt8 → Prop
  | .mk format list data, bytes =>
    ∃ head body, bytes = head ++ body ∧
      Header format (Item.count (.mk format list data)) head ∧
      match format with
      | .list => SpellsAll list body
      | _ => body.length = Item.count (.mk format list data)

def SpellsAll : List Item → List UInt8 → Prop
  | [], bytes => bytes = []
  | item :: items, bytes =>
    ∃ first others, bytes = first ++ others ∧ Spells item first ∧ SpellsAll items others

end

structure Decoded (it : Item) (bytes : List UInt8) : Prop where
  wellFormed : WellFormed it
  spells : Spells it bytes
  length_encode_le : (encode it).length ≤ bytes.length

structure DecodedAll (items : List Item) (bytes : List UInt8) : Prop where
  wellFormed : ∀ item ∈ items, WellFormed item
  spells : SpellsAll items bytes
  length_encodeAll_le : (encodeAll items).length ≤ bytes.length

/-- A header takes four bytes to declare fewer than `2 ^ 24` elements. -/
def elementsPerByte : Nat := 2 ^ 22

/-- What a call of `Decode` can do. -/
inductive Outcome (data : List UInt8) : Decoding (Item × List UInt8) → Prop where
  | failed {used : Nat} (e : DecodeError) (hused : used ≤ elementsPerByte * data.length) :
      Outcome data ⟨used, .error (.error e)⟩
  | decoded {used : Nat} {it : Item} {bytes rest : List UInt8} (hdata : data = bytes ++ rest)
      (hne : bytes ≠ []) (hdecoded : Decoded it bytes)
      (hused : used ≤ elementsPerByte * bytes.length) : Outcome data ⟨used, .ok (it, rest)⟩

inductive OutcomeAll (count : Nat) (data : List UInt8) :
    Decoding (List Item × List UInt8) → Prop where
  | failed {used : Nat} (e : DecodeError) (hused : used ≤ elementsPerByte * data.length) :
      OutcomeAll count data ⟨used, .error (.error e)⟩
  | decoded {used : Nat} {items : List Item} {bytes rest : List UInt8}
      (hdata : data = bytes ++ rest) (hcount : items.length = count)
      (hdecoded : DecodedAll items bytes)
      (hused : used ≤ elementsPerByte * bytes.length) :
      OutcomeAll count data ⟨used, .ok (items, rest)⟩

variable {data : List UInt8} {format : Format} {n : Nat}

section Lists

variable {decodeItem : List UInt8 → Decoding (Item × List UInt8)} {bound : Nat}

theorem Decoded.cons {item : Item} {items : List Item} {first others : List UInt8}
    (hitem : Decoded item first) (hitems : DecodedAll items others) :
    DecodedAll (item :: items) (first ++ others) where
  wellFormed := List.forall_mem_cons.mpr ⟨hitem.wellFormed, hitems.wellFormed⟩
  spells := ⟨first, others, rfl, hitem.spells, hitems.spells⟩
  length_encodeAll_le := by
    rw [encodeAll, List.length_append, List.length_append]
    exact Nat.add_le_add hitem.length_encode_le hitems.length_encodeAll_le

theorem outcome_decodeItems (hitem : ∀ data, data.length < bound → Outcome data (decodeItem data))
    (count i : Nat) (hdata : data.length < bound) :
    OutcomeAll count data (decodeItems decodeItem count i data) := by
  induction count generalizing i data with
  | zero =>
    exact .decoded (List.nil_append data).symm rfl ⟨List.forall_mem_nil _, rfl, Nat.le_refl _⟩
      (Nat.zero_le _)
  | succ count ih =>
    rw [decodeItems]
    have hfirst := hitem data hdata
    generalize decodeItem data = x at hfirst
    cases hfirst with
    | failed e hused => exact .failed (.listElement i e) hused
    | @decoded used item first rest hsplit hne hdecoded hused =>
      have hlength : data.length = first.length + rest.length := by rw [hsplit, List.length_append]
      have hbudget : elementsPerByte * data.length =
          elementsPerByte * first.length + elementsPerByte * rest.length := by
        rw [hlength, Nat.mul_add]
      have hothers : OutcomeAll count rest (decodeItems decodeItem count (i + 1) rest) :=
        ih (i + 1) (by omega)
      rw [Metered.bind_of_ok (a := (item, rest)) rfl]
      dsimp only
      generalize decodeItems decodeItem count (i + 1) rest = y at hothers
      cases hothers with
      | @failed used' e hused' =>
        have hused'' : used + used' ≤ elementsPerByte * data.length := by omega
        exact .failed e hused''
      | @decoded used' items others remaining hsplit' hcount hdecodedAll hused' =>
        have hused'' : used + (used' + 0) ≤ elementsPerByte * (first ++ others).length := by
          rw [List.length_append, Nat.mul_add]
          omega
        refine .decoded ?_ ?_ (hdecoded.cons hdecodedAll) hused''
        · rw [hsplit, hsplit', List.append_assoc]
        · rw [List.length_cons, hcount]

end Lists

/-- The item is one of the format that declares `n` bytes. -/
structure BodyRead (format : Format) (n : Nat) (it : Item) : Prop where
  wellFormed : n < 2 ^ 24 → WellFormed it
  length_encode : (encode it).length = (header format n).length + n
  spells : ∀ head body, Header format n head → body.length = n → Spells it (head ++ body)

theorem bodyRead_of_data {data : Data} (hformat : format ≠ .list)
    (hcount : Item.count (.mk format [] data) = n) (hbody : (data.body format).length = n)
    (hwellFormed : n < 2 ^ 24 → WellFormed (.mk format [] data)) :
    BodyRead format n (.mk format [] data) where
  wellFormed := hwellFormed
  length_encode := by
    unfold encode
    rw [hcount, List.length_append]
    cases format with
    | list => contradiction
    | _ => rw [← hbody]
  spells := by
    intro head body hhead hlength
    unfold Spells
    rw [hcount]
    refine ⟨head, body, rfl, hhead, ?_⟩
    cases format with
    | list => contradiction
    | _ => exact hlength

inductive BodyOutcome (format : Format) (n : Nat) (rest : List UInt8) :
    Decoding (Item × List UInt8) → Prop where
  | failed (e : DecodeError) : BodyOutcome format n rest (.fail (.error e))
  | read {used : Nat} {it : Item} {body remaining : List UInt8} (hrest : rest = body ++ remaining)
      (hlength : body.length = n) (hread : BodyRead format n it) (hused : used ≤ n) :
      BodyOutcome format n rest ⟨used, .ok (it, remaining)⟩

theorem readVals_total {α : Type} (p : Packing α) (rest : List UInt8) (count i : Nat)
    (hroom : (i + count) * p.width ≤ rest.length) :
    ∃ vals, readVals rest p count i = pure vals ∧ vals.length = count := by
  induction count generalizing i with
  | zero => exact ⟨[], rfl, rfl⟩
  | succ count ih =>
    obtain ⟨vals, hvals, hlength⟩ := ih (i + 1) (by rwa [Nat.add_right_comm])
    have hfits : i * p.width + p.width ≤ rest.length := by
      refine Nat.le_trans ?_ hroom
      rw [← Nat.succ_mul]
      exact Nat.mul_le_mul_right _ (by omega)
    have hfrom : sliceFrom rest (i * p.width) = pure (rest.drop (i * p.width)) :=
      if_pos (by omega)
    have hword : wordAt (rest.drop (i * p.width)) p.width =
        pure ((rest.drop (i * p.width)).take p.width) := by
      refine if_pos ?_
      rw [List.length_drop]
      omega
    refine ⟨p.unpack ((rest.drop (i * p.width)).take p.width) :: vals, ?_, ?_⟩
    · rw [readVals, hfrom, Metered.pure_bind, hword, Metered.pure_bind, hvals, Metered.pure_bind]
    · rw [List.length_cons, hlength]

section Bodies

variable {rest : List UInt8}

theorem bodyOutcome_decodeVals {α : Type} (p : Packing α) {make : List α → Item}
    (hread : ∀ vals, vals.length * p.width = n → BodyRead format n (make vals)) :
    BodyOutcome format n rest (decodeVals n rest p make) := by
  unfold decodeVals
  split
  · exact .failed .short
  next hexact =>
    obtain ⟨hmod, hroom⟩ := not_or.mp hexact
    have hmul : n / p.width * p.width = n := Nat.div_mul_cancel
      (Nat.dvd_of_mod_eq_zero (Decidable.not_not.mp hmod))
    obtain ⟨vals, hvals, hlength⟩ := readVals_total p rest (n / p.width) 0
      (by rw [Nat.zero_add, hmul]; omega)
    have hfrom : sliceFrom rest n = pure (rest.drop n) := if_pos (by omega)
    rw [hvals, hfrom]
    refine .read (List.take_append_drop n rest).symm ?_ (hread vals (by rw [hlength, hmul])) ?_
    · rw [List.length_take]
      omega
    · exact Nat.div_le_self n p.width

theorem bodyOutcome_decodeBytes {make : List UInt8 → Item}
    (hread : ∀ bytes, bytes.length = n → BodyRead format n (make bytes)) :
    BodyOutcome format n rest (decodeBytes n rest make) := by
  unfold decodeBytes
  split
  · exact .failed .short
  next hroom =>
    have hlength : (rest.take n).length = n := by
      rw [List.length_take]
      omega
    have hto : sliceTo rest n = pure (rest.take n) := if_pos (by omega)
    have hfrom : sliceFrom rest n = pure (rest.drop n) := if_pos (by omega)
    rw [hto, hfrom, Metered.pure_bind]
    exact .read (List.take_append_drop n rest).symm hlength (hread _ hlength) (Nat.le_refl n)

theorem bodyOutcome_decodeBody (decodeItem : List UInt8 → Decoding (Item × List UInt8))
    (hformat : format ≠ .list) :
    BodyOutcome format n rest (decodeBody decodeItem n rest format) := by
  cases format with
  | list => contradiction
  | other code => exact .failed (.unknownFormat code)
  | binary =>
    exact bodyOutcome_decodeBytes fun bytes h => bodyRead_of_data hformat h h
      fun hn => .binary (h ▸ hn)
  | ascii =>
    exact bodyOutcome_decodeBytes fun bytes h => bodyRead_of_data hformat h h
      fun hn => .ascii (h ▸ hn)
  | jis8 =>
    exact bodyOutcome_decodeBytes fun bytes h => bodyRead_of_data hformat h h
      fun hn => .jis8 (h ▸ hn)
  | u1 =>
    refine bodyOutcome_decodeBytes fun bytes h => bodyRead_of_data hformat ?_ h
      fun hn => .u1 (h ▸ hn)
    rw [Item.count, List.length_nil, Nat.zero_add, h]
  | boolean =>
    refine bodyOutcome_decodeVals boolByte fun vals h => ?_
    have hlength : vals.length = n := (Nat.mul_one _).symm.trans h
    exact bodyRead_of_data hformat hlength ((boolByte.length_packAll vals).trans h)
      fun hn => .boolean (hlength ▸ hn)
  | i1 =>
    refine bodyOutcome_decodeVals int8 fun vals h => ?_
    have hlength : vals.length = n := (Nat.mul_one _).symm.trans h
    exact bodyRead_of_data hformat hlength ((int8.length_packAll vals).trans h)
      fun hn => .i1 (hlength ▸ hn)
  | i2 =>
    exact bodyOutcome_decodeVals int16 fun vals h => bodyRead_of_data hformat h
      ((int16.length_packAll vals).trans h) fun hn => .i2 (h ▸ hn)
  | i4 =>
    exact bodyOutcome_decodeVals int32 fun vals h => bodyRead_of_data hformat h
      ((int32.length_packAll vals).trans h) fun hn => .i4 (h ▸ hn)
  | i8 =>
    exact bodyOutcome_decodeVals int64 fun vals h => bodyRead_of_data hformat h
      ((int64.length_packAll vals).trans h) fun hn => .i8 (h ▸ hn)
  | u2 =>
    exact bodyOutcome_decodeVals uint16 fun vals h => bodyRead_of_data hformat h
      ((uint16.length_packAll vals).trans h) fun hn => .u2 (h ▸ hn)
  | u4 =>
    exact bodyOutcome_decodeVals uint32 fun vals h => bodyRead_of_data hformat h
      ((uint32.length_packAll vals).trans h) fun hn => .u4 (h ▸ hn)
  | u8 =>
    exact bodyOutcome_decodeVals uint64 fun vals h => bodyRead_of_data hformat h
      ((uint64.length_packAll vals).trans h) fun hn => .u8 (h ▸ hn)
  | f4 =>
    exact bodyOutcome_decodeVals uint32 fun vals h => bodyRead_of_data hformat h
      ((uint32.length_packAll vals).trans h) fun hn => .f4 (h ▸ hn)
  | f8 =>
    exact bodyOutcome_decodeVals uint64 fun vals h => bodyRead_of_data hformat h
      ((uint64.length_packAll vals).trans h) fun hn => .f8 (h ▸ hn)

end Bodies

variable {bytes : List UInt8}

theorem Header.le_elements (h : Header format n bytes) : n ≤ elementsPerByte * bytes.length := by
  obtain ⟨hlow, hhigh⟩ := h.length_le
  have hn := h.lt_pow
  unfold elementsPerByte
  obtain heq | heq | heq : bytes.length = 2 ∨ bytes.length = 3 ∨ bytes.length = 4 := by omega
  all_goals
    rw [heq] at hn ⊢
    omega

variable {body head : List UInt8}

theorem Header.decoded_list {items : List Item} (h : Header .list items.length head)
    (hitems : DecodedAll items body) : Decoded (.l items) (head ++ body) where
  wellFormed := .list h.lt hitems.wellFormed
  spells := ⟨head, body, rfl, h, hitems.spells⟩
  length_encode_le := by
    rw [Item.l, encode, List.length_append, List.length_append]
    exact Nat.add_le_add h.length_header_le hitems.length_encodeAll_le

variable {it : Item}

theorem Header.decoded_body (h : Header format n head) (hread : BodyRead format n it)
    (hlength : body.length = n) : Decoded it (head ++ body) where
  wellFormed := hread.wellFormed h.lt
  spells := hread.spells head body h hlength
  length_encode_le := by
    rw [hread.length_encode, List.length_append, hlength]
    exact Nat.add_le_add_right h.length_header_le n

theorem outcome_decodeStep {decodeItem : List UInt8 → Decoding (Item × List UInt8)}
    (hitem : ∀ inner, inner.length < data.length → Outcome inner (decodeItem inner)) :
    Outcome data (decodeStep decodeItem data) := by
  rcases readHeader_cases data with ⟨e, hfail⟩ | ⟨format, n, head, rest, rfl, hhead, hread⟩
  · rw [decodeStep, hfail]
    exact .failed e (Nat.zero_le _)
  · rw [decodeStep_append hhead]
    have hne : ∀ body : List UInt8, head ++ body ≠ [] := by
      intro body heq
      have hlength := hhead.length_le
      rw [(List.append_eq_nil_iff.mp heq).1, List.length_nil] at hlength
      omega
    by_cases hformat : format = .list
    · subst hformat
      have hn := hhead.le_elements
      have hitems := outcome_decodeItems hitem n 0 (hhead.length_rest_lt rest)
      rw [decodeBody]
      generalize decodeItems decodeItem n 0 rest = x at hitems
      cases hitems with
      | @failed used e hused =>
        have hused' : n + used ≤ elementsPerByte * (head ++ rest).length := by
          rw [List.length_append, Nat.mul_add]
          omega
        exact .failed e hused'
      | @decoded used items body remaining hsplit hcount hdecoded hused =>
        have hused' : n + (used + 0) ≤ elementsPerByte * (head ++ body).length := by
          rw [List.length_append, Nat.mul_add]
          omega
        subst hcount
        refine .decoded ?_ (hne body) (hhead.decoded_list hdecoded) hused'
        rw [hsplit, List.append_assoc]
    · have hbody : BodyOutcome format n rest (decodeBody decodeItem n rest format) :=
        bodyOutcome_decodeBody decodeItem hformat
      generalize decodeBody decodeItem n rest format = x at hbody
      cases hbody with
      | failed e => exact .failed e (Nat.zero_le _)
      | @read used it body remaining hsplit hlength hread hused =>
        have hused' : used ≤ elementsPerByte * (head ++ body).length := by
          rw [List.length_append, hlength, Nat.mul_add]
          have hn : n ≤ elementsPerByte * n := Nat.le_mul_of_pos_left n (by decide)
          omega
        refine .decoded ?_ (hne body) (hhead.decoded_body hread hlength) hused'
        rw [hsplit, List.append_assoc]

theorem outcome_decodeWithin {fuel : Nat} (hfuel : data.length < fuel) :
    Outcome data (decodeWithin fuel data) := by
  induction fuel generalizing data with
  | zero => contradiction
  | succ fuel ih => exact outcome_decodeStep fun inner hinner => ih (by omega)

theorem outcome_decode (data : List UInt8) : Outcome data (decode data) :=
  outcome_decodeWithin (Nat.lt_succ_self _)

/-! ## Depth

The depth of nesting never exceeds the number of bytes, so `decode` is the recursion of the
source. -/

section Depth

variable {f g : List UInt8 → Decoding (Item × List UInt8)} {bound : Nat}

theorem decodeItems_congr (houtcome : ∀ data, data.length < bound → Outcome data (f data))
    (heq : ∀ data, data.length < bound → f data = g data) (count i : Nat)
    (hdata : data.length < bound) : decodeItems f count i data = decodeItems g count i data := by
  induction count generalizing i data with
  | zero => rfl
  | succ count ih =>
    rw [decodeItems, decodeItems, ← heq data hdata]
    have hfirst := houtcome data hdata
    generalize f data = x at hfirst
    cases hfirst with
    | failed e hused => rfl
    | @decoded used item first rest hsplit hne hdecoded hused =>
      have hlength : rest.length ≤ data.length := by
        rw [hsplit, List.length_append]
        omega
      rw [Metered.bind_of_ok (a := (item, rest)) rfl, Metered.bind_of_ok (a := (item, rest)) rfl]
      dsimp only
      rw [ih (i + 1) (Nat.lt_of_le_of_lt hlength hdata)]

theorem decodeStep_congr (houtcome : ∀ inner, inner.length < data.length → Outcome inner (f inner))
    (heq : ∀ inner, inner.length < data.length → f inner = g inner) :
    decodeStep f data = decodeStep g data := by
  rcases readHeader_cases data with ⟨e, hfail⟩ | ⟨format, n, head, rest, rfl, hhead, -⟩
  · rw [decodeStep, decodeStep, hfail]
    rfl
  · rw [decodeStep_append hhead, decodeStep_append hhead]
    cases format with
    | list =>
      rw [decodeBody, decodeBody,
        decodeItems_congr houtcome heq n 0 (hhead.length_rest_lt rest)]
    | _ => rfl

end Depth

theorem decodeWithin_eq_decodeWithin {fuel fuel' : Nat} (hfuel : data.length < fuel)
    (hfuel' : data.length < fuel') : decodeWithin fuel data = decodeWithin fuel' data := by
  induction fuel generalizing fuel' data with
  | zero => contradiction
  | succ fuel ih =>
    cases fuel' with
    | zero => contradiction
    | succ fuel' =>
      exact decodeStep_congr (fun inner h => outcome_decodeWithin (by omega))
        fun inner h => ih (by omega) (by omega)

theorem decode_eq_decodeStep (data : List UInt8) : decode data = decodeStep decode data := by
  refine decodeStep_congr (fun inner h => outcome_decodeWithin h) fun inner h => ?_
  exact decodeWithin_eq_decodeWithin h (Nat.lt_succ_self _)

theorem Decoded.read_back (h : Decoded it bytes) (rest : List UInt8) :
    (decode (encode it ++ rest)).result = .ok (it, rest) := by
  refine decodeWithin_encode h.wellFormed rest ?_
  rw [List.length_append]
  omega

/-- `Decode` follows its own recursion to the end: it never panics or runs out of depth.  An item
that it returns is spelled by a nonempty front part of the input, and the canonical encoding of
the item is not longer and reads back as the same item. -/
theorem decode_safe (data : List UInt8) :
    decode data = decodeStep decode data ∧
      ((∃ e, (decode data).result = .error (.error e)) ∨
        ∃ it consumed rest, (decode data).result = .ok (it, rest) ∧
          data = consumed ++ rest ∧ consumed ≠ [] ∧ Spells it consumed ∧
          (encode it).length ≤ consumed.length ∧
          (decode (encode it ++ rest)).result = .ok (it, rest)) := by
  refine ⟨decode_eq_decodeStep data, ?_⟩
  have houtcome := outcome_decode data
  generalize decode data = x at houtcome
  cases houtcome with
  | failed e hused => exact .inl ⟨e, rfl⟩
  | @decoded used it bytes rest hdata hne hdecoded hused =>
    exact .inr ⟨it, bytes, rest, rfl, hdata, hne, hdecoded.spells, hdecoded.length_encode_le,
      hdecoded.read_back rest⟩

theorem Outcome.used_le {x : Decoding (Item × List UInt8)} (h : Outcome data x) :
    x.used ≤ elementsPerByte * data.length := by
  cases h with
  | failed e hused => exact hused
  | @decoded used it bytes rest hdata hne hdecoded hused =>
    refine Nat.le_trans hused (Nat.mul_le_mul_left _ ?_)
    rw [hdata, List.length_append]
    omega

theorem Header.used_decode (h : Header .list (n + 1) bytes) : (decode bytes).used = n + 1 := by
  have hstep : decode bytes = decodeStep decode (bytes ++ []) := by
    rw [List.append_nil]
    exact decode_eq_decodeStep bytes
  rw [hstep, decodeStep_append h]
  -- the first element is missing, but the list is reserved by then
  rfl

end DataPipe.Secsii
