import DataPipe.Secsii.Item

/-!
# The round trip of SECS-II items

What `Encode` writes for a well-formed item is read back by `Decode`, whatever
follows it.
-/

set_option linter.dupNamespace false

namespace DataPipe.Secsii

open DataPipe.Foundation

section Slices

variable (front rest : List UInt8)

@[simp] theorem sliceFrom_append : sliceFrom (front ++ rest) front.length = pure rest := by
  simp [sliceFrom]

@[simp] theorem sliceTo_append : sliceTo (front ++ rest) front.length = pure front := by
  simp [sliceTo]

@[simp] theorem wordAt_append : wordAt (front ++ rest) front.length = pure front := by
  simp [wordAt]

end Slices

/-- A header of the format and the number; there may be more length bytes than are needed. -/
inductive Header : Format → Nat → List UInt8 → Prop where
  | mk (fb : UInt8) (lengthBytes : List UInt8) (hlb : lengthBytes.length = (fb &&& 0x03).toNat)
      (hne : lengthBytes ≠ []) :
      Header (.ofCode (fb >>> 2)) (ofBigEndian lengthBytes) (fb :: lengthBytes)

theorem shifted_bytes (high middle low : UInt8) :
    high.toNat <<< 16 ||| middle.toNat <<< 8 ||| low.toNat = ofBigEndian [high, middle, low] := by
  have hmiddle : middle.toNat < 256 := middle.toNat_lt
  have hlow : low.toNat < 256 := low.toNat_lt
  have hshift : middle.toNat <<< 8 < 2 ^ 16 := by omega
  have hor : high.toNat <<< 16 ||| middle.toNat <<< 8 =
      (high.toNat * 256 + middle.toNat) <<< 8 := by
    rw [← Nat.shiftLeft_add_eq_or_of_lt hshift]
    omega
  rw [hor, ← Nat.shiftLeft_add_eq_or_of_lt hlow, Nat.shiftLeft_eq]
  simp [ofBigEndian]

theorem declared_append (fb : UInt8) (rest : List UInt8) {lengthBytes : List UInt8}
    (hne : lengthBytes ≠ []) (hle : lengthBytes.length ≤ 3) :
    declared (fb :: (lengthBytes ++ rest)) lengthBytes.length = pure (ofBigEndian lengthBytes) := by
  match lengthBytes, hne, hle with
  | [byte], _, _ => simp [declared, index, ofBigEndian]
  | [first, second], _, _ => simp [declared, sliceTo, sliceFrom, wordAt]
  | [high, middle, low], _, _ =>
    rw [← shifted_bytes]
    simp [declared, index]

theorem length_lt_four (fb : UInt8) : (fb &&& 0x03).toNat < 4 := by
  exact Nat.lt_of_le_of_lt Nat.and_le_right (by decide)

variable {format : Format} {n : Nat}

theorem readHeader_append {bytes : List UInt8} (h : Header format n bytes) (rest : List UInt8) :
    readHeader (bytes ++ rest) = pure (format, n, rest) := by
  obtain ⟨fb, lengthBytes, hlb, hne⟩ := h
  have hlt := length_lt_four fb
  have hpos : lengthBytes.length ≠ 0 := fun hzero => hne (List.eq_nil_of_length_eq_zero hzero)
  have hindex : index (fb :: (lengthBytes ++ rest)) 0 = pure fb := rfl
  have hroom : ¬ (fb :: (lengthBytes ++ rest)).length < 1 + lengthBytes.length := by
    rw [List.length_cons, List.length_append]
    omega
  have hdeclared := declared_append fb rest hne (by omega)
  have hfrom : sliceFrom (fb :: (lengthBytes ++ rest)) (1 + lengthBytes.length) = pure rest := by
    rw [Nat.add_comm]
    exact sliceFrom_append (fb :: lengthBytes) rest
  rw [readHeader, List.cons_append, if_neg (by simp)]
  simp only [hindex, Metered.pure_bind, ← hlb, if_neg hpos, if_neg hroom, hdeclared, hfrom]

theorem formatByte_spec (hknown : format.known = true) {lb : Nat} (hpos : 0 < lb) (hlt : lb < 4) :
    Format.ofCode ((format.code <<< 2 ||| UInt8.ofNat lb) >>> 2) = format ∧
      ((format.code <<< 2 ||| UInt8.ofNat lb) &&& 0x03).toNat = lb := by
  match lb, hpos, hlt with
  | 1, _, _ | 2, _, _ | 3, _, _ =>
    cases format with
    | other code => contradiction
    | _ => decide

theorem lengthBytesNeeded_spec (n : Nat) : 0 < lengthBytesNeeded n ∧ lengthBytesNeeded n < 4 := by
  unfold lengthBytesNeeded
  split
  · decide
  · split <;> decide

theorem length_lengthBytes (n : Nat) : (lengthBytes n).length = lengthBytesNeeded n := by
  unfold lengthBytes lengthBytesNeeded
  split
  next h => simp [h]
  next h => simp [h]
  · split_ifs at * <;> simp_all

theorem ofBigEndian_lengthBytes (hn : n < 2 ^ 24) : ofBigEndian (lengthBytes n) = n := by
  unfold lengthBytes lengthBytesNeeded
  split_ifs with hone htwo
  · simp [ofBigEndian]
    omega
  · exact ofBigEndian_bigEndian (by omega)
  · have hthree : [UInt8.ofNat (n >>> 16), UInt8.ofNat (n >>> 8), UInt8.ofNat n] =
        bigEndian 3 n := by
      simp [bigEndian, Nat.shiftRight_eq_div_pow, Nat.div_div_eq_div_mul]
    simp only [hthree]
    exact ofBigEndian_bigEndian (by omega)

theorem header_spec (hknown : format.known = true)
    (hn : n < 2 ^ 24) : Header format n (header format n) := by
  obtain ⟨hpos, hlt⟩ := lengthBytesNeeded_spec n
  obtain ⟨hcode, hlb⟩ := formatByte_spec hknown hpos hlt
  have hlength := length_lengthBytes n
  have hheader := Header.mk (format.code <<< 2 ||| UInt8.ofNat (lengthBytesNeeded n))
    (lengthBytes n) (hlength.trans hlb.symm) (List.ne_nil_of_length_pos (hlength ▸ hpos))
  rwa [hcode, ofBigEndian_lengthBytes hn] at hheader

section Bodies

variable {α : Type} (p : Packing α)

theorem readVals_packAll (front : List UInt8) (vals : List α) (rest : List UInt8) {i : Nat}
    (hfront : front.length = i * p.width) :
    readVals (front ++ (p.packAll vals ++ rest)) p vals.length i = pure vals := by
  induction vals generalizing front i with
  | nil => rfl
  | cons x vals ih =>
    have hnext : (front ++ p.pack x).length = (i + 1) * p.width := by
      rw [List.length_append, hfront, p.length_pack, Nat.succ_mul]
    have htail := ih (front ++ p.pack x) hnext
    rw [List.append_assoc] at htail
    rw [List.length_cons, readVals, ← hfront, sliceFrom_append, Metered.pure_bind,
      Packing.packAll_cons, List.append_assoc, ← p.length_pack x, wordAt_append,
      Metered.pure_bind, htail, Metered.pure_bind, p.unpack_pack]

theorem decodeVals_packAll (vals : List α) (rest : List UInt8) (make : List α → Item) :
    (decodeVals (vals.length * p.width) (p.packAll vals ++ rest) p make).result =
      .ok (make vals, rest) := by
  have hexact : ¬ (vals.length * p.width % p.width ≠ 0 ∨
      (p.packAll vals ++ rest).length < vals.length * p.width) := by
    rw [Nat.mul_mod_left, List.length_append, p.length_packAll]
    omega
  have hread := readVals_packAll p [] vals rest (i := 0) (by simp)
  rw [List.nil_append] at hread
  rw [decodeVals, if_neg hexact, Nat.mul_div_cancel _ p.width_pos, hread,
    ← p.length_packAll, sliceFrom_append]
  rfl

theorem decodeBytes_append (bytes rest : List UInt8) (make : List UInt8 → Item) :
    (decodeBytes bytes.length (bytes ++ rest) make).result = .ok (make bytes, rest) := by
  have hroom : ¬ (bytes ++ rest).length < bytes.length := by
    rw [List.length_append]
    omega
  rw [decodeBytes, if_neg hroom, sliceTo_append, sliceFrom_append]
  rfl

end Bodies

section Lists

variable {decodeItem : List UInt8 → Decoding (Item × List UInt8)}

theorem decodeItems_encodeAll {items : List Item}
    (hitems : ∀ item ∈ items, ∀ rest, (decodeItem (encode item ++ rest)).result = .ok (item, rest))
    (i : Nat) (rest : List UInt8) :
    (decodeItems decodeItem items.length i (encodeAll items ++ rest)).result =
      .ok (items, rest) := by
  induction items generalizing i with
  | nil => rfl
  | cons item items ih =>
    have hitem := hitems item List.mem_cons_self (encodeAll items ++ rest)
    have htail := ih (fun other hother => hitems other (List.mem_cons_of_mem _ hother)) (i + 1)
    rw [List.length_cons, decodeItems, encodeAll, List.append_assoc]
    simp only [Metered.result_bind_eq_ok, Metered.result_reporting_eq_ok]
    exact ⟨(item, encodeAll items ++ rest), hitem, (items, rest), htail, rfl⟩

theorem decodeStep_append {bytes : List UInt8} (h : Header format n bytes) (rest : List UInt8) :
    decodeStep decodeItem (bytes ++ rest) = decodeBody decodeItem n rest format := by
  rw [decodeStep, readHeader_append h, Metered.pure_bind]

end Lists

/-- An item has only the field of its format, and what it declares fits three bytes. -/
inductive WellFormed : Item → Prop where
  | list {items : List Item} (hlen : items.length < 2 ^ 24)
      (hitems : ∀ item ∈ items, WellFormed item) : WellFormed (.l items)
  | binary {bytes : List UInt8} (hlen : bytes.length < 2 ^ 24) : WellFormed (.b bytes)
  | boolean {v : List Bool} (hlen : v.length < 2 ^ 24) : WellFormed (.bool v)
  | ascii {s : List UInt8} (hlen : s.length < 2 ^ 24) : WellFormed (.a s)
  | jis8 {s : List UInt8} (hlen : s.length < 2 ^ 24) : WellFormed (.jis8 s)
  | i1 {v : List Int8} (hlen : v.length < 2 ^ 24) : WellFormed (.i1v v)
  | i2 {v : List Int16} (hlen : v.length * 2 < 2 ^ 24) : WellFormed (.i2v v)
  | i4 {v : List Int32} (hlen : v.length * 4 < 2 ^ 24) : WellFormed (.i4v v)
  | i8 {v : List Int64} (hlen : v.length * 8 < 2 ^ 24) : WellFormed (.i8v v)
  | u1 {v : List UInt8} (hlen : v.length < 2 ^ 24) : WellFormed (.u1v v)
  | u2 {v : List UInt16} (hlen : v.length * 2 < 2 ^ 24) : WellFormed (.u2v v)
  | u4 {v : List UInt32} (hlen : v.length * 4 < 2 ^ 24) : WellFormed (.u4v v)
  | u8 {v : List UInt64} (hlen : v.length * 8 < 2 ^ 24) : WellFormed (.u8v v)
  | f4 {v : List UInt32} (hlen : v.length * 4 < 2 ^ 24) : WellFormed (.f4v v)
  | f8 {v : List UInt64} (hlen : v.length * 8 < 2 ^ 24) : WellFormed (.f8v v)

theorem length_encode_pos (it : Item) : 0 < (encode it).length := by
  cases it with
  | mk format list data =>
    unfold encode
    rw [List.length_append, header, List.length_cons]
    omega

theorem length_encode_le_encodeAll {item : Item} {items : List Item} (hitem : item ∈ items) :
    (encode item).length ≤ (encodeAll items).length := by
  induction items with
  | nil => contradiction
  | cons head items ih =>
    rw [encodeAll, List.length_append]
    rcases List.mem_cons.mp hitem with rfl | hitem
    · omega
    · have htail := ih hitem
      omega

variable {fuel : Nat} {it : Item}

theorem decodeWithin_of_body (format : Format) (n : Nat) (body : List UInt8) {rest : List UInt8}
    (hencode : encode it = header format n ++ body) (hknown : format.known = true) (hn : n < 2 ^ 24)
    (hbody : (decodeBody (decodeWithin fuel) n (body ++ rest) format).result = .ok (it, rest)) :
    (decodeWithin (fuel + 1) (encode it ++ rest)).result = .ok (it, rest) := by
  rw [decodeWithin, hencode, List.append_assoc, decodeStep_append (header_spec hknown hn), hbody]

theorem decodeWithin_encode (h : WellFormed it) (rest : List UInt8)
    (hfuel : (encode it).length ≤ fuel + 1) :
    (decodeWithin (fuel + 1) (encode it ++ rest)).result = .ok (it, rest) := by
  induction h generalizing rest fuel with
  | @list items hlen hitems ih =>
    have hencode : encode (.l items) = header .list items.length ++ encodeAll items := by
      rw [Item.l, encode, Item.count]
    have hinner : ∀ item ∈ items, ∀ rest,
        (decodeWithin fuel (encode item ++ rest)).result = .ok (item, rest) := by
      intro item hitem rest
      have hpos := length_encode_pos item
      have hle := length_encode_le_encodeAll hitem
      rw [hencode, List.length_append, header, List.length_cons] at hfuel
      obtain ⟨depth, rfl⟩ : ∃ depth, fuel = depth + 1 := ⟨fuel - 1, by omega⟩
      exact ih item hitem rest (by omega)
    refine decodeWithin_of_body .list items.length (encodeAll items) hencode rfl hlen ?_
    rw [decodeBody]
    simp only [Metered.result_bind_eq_ok]
    exact ⟨(), rfl, (items, rest), decodeItems_encodeAll hinner 0 rest, rfl⟩
  | @binary bytes hlen =>
    exact decodeWithin_of_body .binary _ bytes rfl rfl hlen (decodeBytes_append bytes rest .b)
  | @boolean v hlen =>
    refine decodeWithin_of_body .boolean _ (boolByte.packAll v) rfl rfl hlen ?_
    have hvals := decodeVals_packAll boolByte v rest .bool
    rwa [show boolByte.width = 1 from rfl, Nat.mul_one] at hvals
  | @ascii str hlen =>
    exact decodeWithin_of_body .ascii _ str rfl rfl hlen (decodeBytes_append str rest .a)
  | @jis8 str hlen =>
    exact decodeWithin_of_body .jis8 _ str rfl rfl hlen (decodeBytes_append str rest .jis8)
  | @i1 v hlen =>
    refine decodeWithin_of_body .i1 _ (int8.packAll v) rfl rfl hlen ?_
    have hvals := decodeVals_packAll int8 v rest .i1v
    rwa [show int8.width = 1 from rfl, Nat.mul_one] at hvals
  | @u1 v hlen =>
    have hencode : encode (.u1v v) = header .u1 v.length ++ v := by
      simp [Item.u1v, encode, Item.count, Data.body]
    exact decodeWithin_of_body .u1 _ v hencode rfl hlen (decodeBytes_append v rest .u1v)
  | @i2 v hlen =>
    exact decodeWithin_of_body .i2 _ (int16.packAll v) rfl rfl hlen
      (decodeVals_packAll int16 v rest .i2v)
  | @i4 v hlen =>
    exact decodeWithin_of_body .i4 _ (int32.packAll v) rfl rfl hlen
      (decodeVals_packAll int32 v rest .i4v)
  | @i8 v hlen =>
    exact decodeWithin_of_body .i8 _ (int64.packAll v) rfl rfl hlen
      (decodeVals_packAll int64 v rest .i8v)
  | @u2 v hlen =>
    exact decodeWithin_of_body .u2 _ (uint16.packAll v) rfl rfl hlen
      (decodeVals_packAll uint16 v rest .u2v)
  | @u4 v hlen =>
    exact decodeWithin_of_body .u4 _ (uint32.packAll v) rfl rfl hlen
      (decodeVals_packAll uint32 v rest .u4v)
  | @u8 v hlen =>
    exact decodeWithin_of_body .u8 _ (uint64.packAll v) rfl rfl hlen
      (decodeVals_packAll uint64 v rest .u8v)
  | @f4 v hlen =>
    exact decodeWithin_of_body .f4 _ (uint32.packAll v) rfl rfl hlen
      (decodeVals_packAll uint32 v rest .f4v)
  | @f8 v hlen =>
    exact decodeWithin_of_body .f8 _ (uint64.packAll v) rfl rfl hlen
      (decodeVals_packAll uint64 v rest .f8v)

/-- `Decode` reads a well-formed item back and leaves what follows it. -/
theorem decode_encode_append {it : Item} (h : WellFormed it) (rest : List UInt8) :
    (decode (encode it ++ rest)).result = .ok (it, rest) := by
  refine decodeWithin_encode h rest ?_
  rw [List.length_append]
  omega

/-- A list with a text, an empty list, a negative number, a not-a-number and two booleans. -/
def nestedItem : Item :=
  .l [.a [0x41, 0x42], .l [], .i2v [-2], .f8v [0x7FF8000000000001], .bool [true, false]]

theorem wellFormed_nestedItem : WellFormed nestedItem := by
  refine .list (by decide) ?_
  simp only [List.forall_mem_cons]
  exact ⟨.ascii (by decide), .list (by decide) (List.forall_mem_nil _), .i2 (by decide),
    .f8 (by decide), .boolean (by decide), List.forall_mem_nil _⟩

theorem nestedItem_read_back :
    (decode (encode nestedItem ++ [0x07])).result = .ok (nestedItem, [0x07]) :=
  decode_encode_append wellFormed_nestedItem [0x07]

end DataPipe.Secsii
