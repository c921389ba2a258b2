import Mathlib
import ReactiveState.Document.MessagePack
import ReactiveState.Proofs.Document.Every
import ReactiveState.Proofs.Text.Utf8
import ReactiveState.Wire.Types

/-!
# MessagePack bytes are read back

A plain document whose lengths have a header is read back from its bytes, if it nests no deeper than
the reader allows (`Document.ofMessagePack?_msgpack`).

Every reader is shown to take what its writer wrote and to leave the rest.  A byte pays for three
calls of the reader, which the fuel counts.

That the bits of a double give the double is known to the library (`Float.ofBits_toBits`); this part
of it comes with the whole of Mathlib only.
-/

namespace ReactiveState

/-! ### Numbers -/

/-- A number of a given width takes as many bytes. -/
@[simp] theorem length_bigEndian (width n : Nat) : (bigEndian width n).length = width := by
  induction width with
  | zero => rfl
  | succ width ih => rw [bigEndian, List.length_cons, ih]

/-- Reading the bytes of a number shifts what was read before and adds the number. -/
theorem foldl_bigEndian (width n found : Nat) :
    (bigEndian width n).foldl (fun n b => 256 * n + b.toNat) found =
      256 ^ width * found + n % 256 ^ width := by
  induction width generalizing found with
  | zero => simp [bigEndian, Nat.mod_one]
  | succ width ih =>
    -- The first byte holds the highest digit of the number to the base 256
    have hbyte : (UInt8.ofNat (n >>> (8 * width))).toNat = n / 256 ^ width % 256 := by
      rw [UInt8.toNat_ofNat', Nat.shiftRight_eq_div_pow, Nat.pow_mul]
    rw [bigEndian, List.foldl_cons, ih, hbyte, Nat.pow_succ, Nat.mod_mul]
    ring

/-- The bytes give the number again. -/
theorem ofBigEndian_bigEndian {width n : Nat} (h : n < 256 ^ width) :
    ofBigEndian (bigEndian width n) = n := by
  rw [ofBigEndian, foldl_bigEndian, Nat.mul_zero, Nat.zero_add, Nat.mod_eq_of_lt h]

namespace MessagePackReader

/-- As many bytes are taken as were put in front. -/
theorem take?_append (head rest : List UInt8) :
    take? head.length (head ++ rest) = some (head, rest) := by
  simp [take?]

/-- A number that fits the width is read back from its bytes. -/
theorem unsigned?_bigEndian {width n : Nat} (h : n < 256 ^ width) (rest : List UInt8) :
    unsigned? width (bigEndian width n ++ rest) = some (n, rest) := by
  have htake := take?_append (bigEndian width n) rest
  rw [length_bigEndian] at htake
  simp only [unsigned?, htake, Option.map_some, ofBigEndian_bigEndian h]

/-- A negative number is read back from its two's complement. -/
theorem signed?_bigEndian {width : Nat} {n : Int} (hlow : -(256 ^ width : Nat) ≤ 2 * n)
    (hneg : n < 0) (rest : List UInt8) :
    signed? width (bigEndian width (n + (256 ^ width : Nat)).toNat ++ rest) = some (n, rest) := by
  have hbase : 1 <<< (8 * width) = 256 ^ width := by
    rw [Nat.one_shiftLeft, Nat.pow_mul]
  have hpos : 0 < 256 ^ width := by positivity
  rw [signed?, unsigned?_bigEndian (by omega), hbase]
  -- Nothing else about the power matters
  generalize 256 ^ width = m at *
  have hmod : Int.bmod ((n + m).toNat : Int) m = n := by
    rw [Int.toNat_of_nonneg (by omega), Int.add_bmod_right]
    exact Int.bmod_eq_of_le (by omega) (by omega)
  simp only [Option.map_some, hmod]

/-! ### Headers -/

/-- A number below 128 is its own header. -/
theorem ofByte?_int {n : Nat} (h : n < 0x80) :
    Header.ofByte? (UInt8.ofNat n) = some (.scalar (.int n)) := by
  have hsize : n < UInt8.size := Nat.lt_trans h (by decide)
  have hn : (UInt8.ofNat n).toNat = n := UInt8.toNat_ofNat_of_lt' hsize
  simp [Header.ofByte?, hn, h]

theorem ofByte?_neg {n : Int} (hlow : -0x20 ≤ n) (hneg : n < 0) :
    Header.ofByte? (UInt8.ofNat (n + 0x100).toNat) = some (.scalar (.int n)) := by
  interval_cases n <;> rfl

theorem ofByte?_map {n : Nat} (h : n < 0x10) :
    Header.ofByte? (UInt8.ofNat (0x80 + n)) = some (.map n) := by
  interval_cases n <;> rfl

theorem ofByte?_seq {n : Nat} (h : n < 0x10) :
    Header.ofByte? (UInt8.ofNat (0x90 + n)) = some (.seq n) := by
  interval_cases n <;> rfl

theorem ofByte?_str {n : Nat} (h : n < 0x20) :
    Header.ofByte? (UInt8.ofNat (0xa0 + n)) = some (.str n) := by
  interval_cases n <;> rfl

variable {b : UInt8} {bs rest : List UInt8} {width n fuel depth : Nat}

/-- Some documents are their header. -/
theorem value?_scalar {d : Document} (hb : Header.ofByte? b = some (.scalar d)) :
    value? (fuel + 1) depth (b :: rest) = some (d, rest) := by
  simp [value?, hb]

/-- A number behind a header is read with the width that the header says. -/
theorem value?_unsigned (hb : Header.ofByte? b = some (.unsigned width)) (h : n < 256 ^ width) :
    value? (fuel + 1) depth (b :: bigEndian width n ++ rest) = some (.int n, rest) := by
  simp [value?, hb, unsigned?_bigEndian h]

/-- A negative number is read back from its two's complement. -/
theorem value?_signed {n : Int} (hb : Header.ofByte? b = some (.signed width))
    (hlow : -(256 ^ width : Nat) ≤ 2 * n) (hneg : n < 0) :
    value? (fuel + 1) depth (b :: bigEndian width (n + (256 ^ width : Nat)).toNat ++ rest) =
      some (.int n, rest) := by
  have hread := signed?_bigEndian hlow hneg rest
  generalize bigEndian width (n + (256 ^ width : Nat)).toNat = bytes at hread ⊢
  simp [value?, hb, hread]

/-! ### Scalars -/

/-- Every integer of 64 bits is read back from its smallest form. -/
theorem value?_int (n : Int64) (rest : List UInt8) :
    value? (fuel + 1) depth (Document.msgpackInt n.toInt ++ rest) = some (.int n.toInt, rest) := by
  have hlow := Int64.le_toInt n
  have hhigh := Int64.toInt_lt n
  generalize n.toInt = k at *
  unfold Document.msgpackInt
  -- The smallest form that holds the number was written, so each case knows its range
  split
  · next hnonneg =>
    lift k to Nat using hnonneg
    simp only [Int.toNat_natCast]
    split
    · next h => exact value?_scalar (ofByte?_int h)
    split
    · exact value?_unsigned rfl (by omega)
    split
    · exact value?_unsigned rfl (by omega)
    split
    · exact value?_unsigned rfl (by omega)
    · exact value?_unsigned rfl (by omega)
  · next hneg =>
    split
    · next h => exact value?_scalar (ofByte?_neg h (by omega))
    split
    · exact value?_signed rfl (by omega) (by omega)
    split
    · exact value?_signed rfl (by omega) (by omega)
    split
    · exact value?_signed rfl (by omega) (by omega)
    · exact value?_signed rfl (by omega) (by omega)

/-- A double is read back from its bits. -/
theorem value?_float (x : Float) (rest : List UInt8) :
    value? (fuel + 1) depth ((Document.float x).msgpack ++ rest) = some (.float x, rest) := by
  have hbits : x.toBits.toNat < 256 ^ 8 := x.toBits.toNat_lt
  have hb : Header.ofByte? 0xcb = some .float64 := rfl
  simp [value?, Document.msgpack, hb, unsigned?_bigEndian hbits]

/-- The bytes of a text after their length. -/
theorem str?_bytes (s : String) (rest : List UInt8) :
    str? s.toUTF8.toList.length (s.toUTF8.toList ++ rest) = some (.str s, rest) := by
  simp only [str?, take?_append, Option.map_some, fromUTF8?_bytes]

/-- A text whose length stands behind the header. -/
theorem value?_strOf (hb : Header.ofByte? b = some (.strOf width)) (h : n < 256 ^ width) :
    value? (fuel + 1) depth (b :: bigEndian width n ++ bs) = str? n bs := by
  simp [value?, hb, unsigned?_bigEndian h]

/-- A text is read back from the smallest header for its length. -/
theorem value?_str {s : String} (h : s.utf8ByteSize < 0x100000000) (rest : List UInt8) :
    value? (fuel + 1) depth ((Document.str s).msgpack ++ rest) = some (.str s, rest) := by
  rw [← str?_bytes, Document.msgpack, Document.msgpackStr, List.append_assoc]
  rw [← length_bytes] at h
  -- Only the bytes of the text matter for the header
  generalize s.toUTF8.toList = text at *
  -- The short header holds the length in its own byte, the others in one, two or four bytes
  split
  · next h =>
    have hb := ofByte?_str h
    generalize UInt8.ofNat (0xa0 + text.length) = b at hb ⊢
    simp [value?, hb]
  split
  · exact value?_strOf rfl (by omega)
  split
  · exact value?_strOf rfl (by omega)
  · exact value?_strOf rfl (by omega)

/-! ### Containers -/

/-- A list whose length stands behind the header. -/
theorem value?_seqOf (hb : Header.ofByte? b = some (.seqOf width)) (h : n < 256 ^ width) :
    value? (fuel + 1) depth (b :: bigEndian width n ++ bs) = seq? fuel depth n bs := by
  simp [value?, hb, unsigned?_bigEndian h]

/-- Whatever the header of a list, the list is read next. -/
theorem value?_seqHeader (h : n < 0x100000000) (bs : List UInt8) :
    value? (fuel + 1) depth (Document.msgpackSeqHeader n ++ bs) = seq? fuel depth n bs := by
  unfold Document.msgpackSeqHeader
  -- A short header holds the length itself, the longer ones in two or four bytes
  split
  · next h =>
    have hb := ofByte?_seq h
    generalize UInt8.ofNat (0x90 + n) = b at hb ⊢
    simp [value?, hb]
  split
  · exact value?_seqOf rfl (by omega)
  · exact value?_seqOf rfl (by omega)

/-- A map whose length stands behind the header. -/
theorem value?_mapOf (hb : Header.ofByte? b = some (.mapOf width)) (h : n < 256 ^ width) :
    value? (fuel + 1) depth (b :: bigEndian width n ++ bs) = map? fuel depth n bs := by
  simp [value?, hb, unsigned?_bigEndian h]

/-- Whatever the header of a map, the map is read next. -/
theorem value?_mapHeader (h : n < 0x100000000) (bs : List UInt8) :
    value? (fuel + 1) depth (Document.msgpackMapHeader n ++ bs) = map? fuel depth n bs := by
  unfold Document.msgpackMapHeader
  split
  · next h =>
    have hb := ofByte?_map h
    generalize UInt8.ofNat (0x80 + n) = b at hb ⊢
    simp [value?, hb]
  split
  · exact value?_mapOf rfl (by omega)
  · exact value?_mapOf rfl (by omega)

/-! ### Documents -/

/-- Every number takes a byte. -/
theorem msgpackInt_length_pos (n : Int) : 0 < (Document.msgpackInt n).length := by
  unfold Document.msgpackInt
  grind

theorem seqHeader_length_pos (n : Nat) : 0 < (Document.msgpackSeqHeader n).length := by
  unfold Document.msgpackSeqHeader
  grind

theorem mapHeader_length_pos (n : Nat) : 0 < (Document.msgpackMapHeader n).length := by
  unfold Document.msgpackMapHeader
  grind

/-- Every document takes a byte. -/
theorem msgpack_length_pos (d : Document) : 0 < d.msgpack.length := by
  cases d with
  | int n => exact msgpackInt_length_pos n
  | bool b => cases b <;> simp [Document.msgpack]
  | str s =>
    rw [Document.msgpack, Document.msgpackStr]
    grind
  | bytes bs =>
    rw [Document.msgpack, Document.msgpackBytes]
    grind
  | seq ds =>
    rw [Document.msgpack, List.length_append]
    exact Nat.add_pos_left (seqHeader_length_pos _) _
  | map es =>
    rw [Document.msgpack, List.length_append]
    exact Nat.add_pos_left (mapHeader_length_pos _) _
  | _ => simp [Document.msgpack]

-- Induction on the document.  A container takes two calls before its parts and one for each of
-- them; every byte pays for three.
mutual

/-- A document is read up to its last byte. -/
theorem value?_msgpack : ∀ (d : Document) {fuel depth : Nat} {rest : List UInt8},
    d.Every (fun d => d.IsPlain ∧ d.HasMessagePack) → 3 * d.msgpack.length ≤ fuel + 2 →
    d.nesting ≤ depth → value? (fuel + 1) depth (d.msgpack ++ rest) = some (d, rest)
  | .null, _, _, _, _, _, _ => value?_scalar rfl
  | .bool true, _, _, _, _, _, _ => value?_scalar rfl
  | .bool false, _, _, _, _, _, _ => value?_scalar rfl
  | .int n, _, _, rest, h, _, _ => by
    obtain ⟨k, hk⟩ := Option.isSome_iff_exists.1 h.1
    rw [← int64?_eq_some_iff.1 hk]
    exact value?_int k rest
  | .float x, _, _, rest, _, _, _ => value?_float x rest
  | .str _, _, _, rest, h, _, _ => value?_str h.2 rest
  | .seq ds, fuel, depth, rest, h, hfuel, hdepth => by
    -- The header takes a byte, which leaves fuel for the items
    have hheader := seqHeader_length_pos ds.length
    rw [Document.msgpack, List.length_append] at hfuel
    rw [Document.nesting] at hdepth
    obtain ⟨fuel, rfl⟩ : ∃ f, fuel = f + 1 := ⟨fuel - 1, by omega⟩
    obtain ⟨depth, rfl⟩ : ∃ k, depth = k + 1 := ⟨depth - 1, by omega⟩
    rw [Document.msgpack, List.append_assoc, value?_seqHeader h.1.2, seq?,
      items?_msgpack ds h.2 (by omega) (by omega)]
    rfl
  | .map es, fuel, depth, rest, h, hfuel, hdepth => by
    -- As for a sequence, with a key before each document
    have hheader := mapHeader_length_pos es.length
    rw [Document.msgpack, List.length_append] at hfuel
    rw [Document.nesting] at hdepth
    obtain ⟨fuel, rfl⟩ : ∃ f, fuel = f + 1 := ⟨fuel - 1, by omega⟩
    obtain ⟨depth, rfl⟩ : ∃ k, depth = k + 1 := ⟨depth - 1, by omega⟩
    rw [Document.msgpack, List.append_assoc, value?_mapHeader h.1.2, map?,
      entries?_msgpack es h.2 h.1.1 (by omega) (by omega)]
    rfl

/-- As many items are read as the header says. -/
theorem items?_msgpack : ∀ (ds : List Document) {fuel depth : Nat} {rest : List UInt8},
    Document.EveryItem (fun d => d.IsPlain ∧ d.HasMessagePack) ds →
    3 * (Document.msgpackItems ds).length ≤ fuel → Document.itemNesting ds ≤ depth →
    items? fuel depth ds.length (Document.msgpackItems ds ++ rest) = some (ds, rest)
  | [], _, _, _, _, _, _ => by simp [items?, Document.msgpackItems]
  | d :: ds, fuel, depth, rest, h, hfuel, hdepth => by
    -- The first document takes bytes, so the fuel for the others is enough
    have hpos := msgpack_length_pos d
    rw [Document.msgpackItems, List.length_append] at hfuel
    rw [Document.itemNesting] at hdepth
    obtain ⟨fuel, rfl⟩ : ∃ f, fuel = f + 2 := ⟨fuel - 2, by omega⟩
    rw [Document.msgpackItems, List.append_assoc, List.length_cons, items?,
      value?_msgpack d h.1 (by omega) (by omega), Option.bind_eq_bind, Option.bind_some]
    dsimp only
    rw [items?_msgpack ds h.2 (by omega) (by omega)]
    rfl

/-- As many entries are read as the header says. -/
theorem entries?_msgpack : ∀ (es : List (Document × Document)) {fuel depth : Nat}
    {rest : List UInt8}, Document.EveryEntry (fun d => d.IsPlain ∧ d.HasMessagePack) es →
    (∀ e ∈ es, ∃ s, e.1 = .str s) → 3 * (Document.msgpackEntries es).length ≤ fuel →
    Document.entryNesting es ≤ depth →
    entries? fuel depth es.length (Document.msgpackEntries es ++ rest) = some (es, rest)
  | [], _, _, _, _, _, _, _ => by simp [entries?, Document.msgpackEntries]
  | (k, d) :: es, fuel, depth, rest, h, hkeys, hfuel, hdepth => by
    -- A key is a text, which is read without going deeper
    obtain ⟨s, rfl : k = .str s⟩ := hkeys (k, d) (List.mem_cons_self ..)
    have hpos := msgpack_length_pos d
    rw [Document.msgpackEntries, List.length_append, List.length_append] at hfuel
    rw [Document.entryNesting] at hdepth
    obtain ⟨fuel, rfl⟩ : ∃ f, fuel = f + 2 := ⟨fuel - 2, by omega⟩
    rw [Document.msgpackEntries, List.append_assoc, List.append_assoc, List.length_cons, entries?,
      value?_str h.1.2, Option.bind_eq_bind, Option.bind_some]
    dsimp only
    rw [value?_msgpack d h.2.1 (by omega) (by omega), Option.bind_eq_bind, Option.bind_some]
    dsimp only
    rw [entries?_msgpack es h.2.2 (fun e he => hkeys e (List.mem_cons_of_mem _ he)) (by omega)
      (by omega)]
    rfl

end

end MessagePackReader

/-- The bytes of a plain document whose lengths have a header are read as the document. -/
theorem Document.ofMessagePack?_msgpack {d : Document}
    (h : d.Every fun d => d.IsPlain ∧ d.HasMessagePack) {depth : Nat} (hdepth : d.nesting ≤ depth) :
    ofMessagePack? depth d.msgpack = some d := by
  have hread : MessagePackReader.value? (3 * d.msgpack.length + 3) depth (d.msgpack ++ []) =
      some (d, []) := MessagePackReader.value?_msgpack d h (by omega) hdepth
  rw [List.append_nil] at hread
  rw [ofMessagePack?, hread, Option.map_some]

end ReactiveState
