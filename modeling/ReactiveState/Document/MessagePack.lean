import ReactiveState.Document

/-! # MessagePack bytes

The written form of a document with the smallest header for every integer, string, sequence and map
(a float always takes eight bytes), and a reader of every form the format has.

An extension is read as `unreadable`; a string that is not UTF-8 is read as its bytes. -/

namespace ReactiveState

/-- The `width` low bytes of a number, high byte first. -/
def bigEndian : Nat → Nat → List UInt8
  | 0, _ => []
  | width + 1, n => UInt8.ofNat (n >>> (8 * width)) :: bigEndian width n

/-- The number of the bytes, high byte first. -/
def ofBigEndian (bs : List UInt8) : Nat :=
  bs.foldl (fun n b => 256 * n + b.toNat) 0

namespace Document

/-! ### Writing -/

/-- The smallest form of an integer of at most 64 bits; what is not negative is written unsigned. -/
def msgpackInt (n : Int) : List UInt8 :=
  if 0 ≤ n then
    let n := n.toNat
    if n < 0x80 then [UInt8.ofNat n]
    else if n < 0x100 then 0xcc :: bigEndian 1 n
    else if n < 0x10000 then 0xcd :: bigEndian 2 n
    else if n < 0x100000000 then 0xce :: bigEndian 4 n
    else 0xcf :: bigEndian 8 n
  else if -0x20 ≤ n then [UInt8.ofNat (n + 0x100).toNat]
  else if -0x80 ≤ n then 0xd0 :: bigEndian 1 (n + 0x100).toNat
  else if -0x8000 ≤ n then 0xd1 :: bigEndian 2 (n + 0x10000).toNat
  else if -0x80000000 ≤ n then 0xd2 :: bigEndian 4 (n + 0x100000000).toNat
  else 0xd3 :: bigEndian 8 (n + 0x10000000000000000).toNat

/-- A string with its header. -/
def msgpackStr (s : String) : List UInt8 :=
  let bs := s.toUTF8.toList
  let n := bs.length
  (if n < 0x20 then [UInt8.ofNat (0xa0 + n)]
    else if n < 0x100 then 0xd9 :: bigEndian 1 n
    else if n < 0x10000 then 0xda :: bigEndian 2 n
    else 0xdb :: bigEndian 4 n) ++ bs

/-- Bytes with their header. -/
def msgpackBytes (bs : List UInt8) : List UInt8 :=
  let n := bs.length
  (if n < 0x100 then 0xc4 :: bigEndian 1 n
    else if n < 0x10000 then 0xc5 :: bigEndian 2 n
    else 0xc6 :: bigEndian 4 n) ++ bs

/-- The header of a sequence. -/
def msgpackSeqHeader (n : Nat) : List UInt8 :=
  if n < 0x10 then [UInt8.ofNat (0x90 + n)]
  else if n < 0x10000 then 0xdc :: bigEndian 2 n
  else 0xdd :: bigEndian 4 n

/-- The header of a map. -/
def msgpackMapHeader (n : Nat) : List UInt8 :=
  if n < 0x10 then [UInt8.ofNat (0x80 + n)]
  else if n < 0x10000 then 0xde :: bigEndian 2 n
  else 0xdf :: bigEndian 4 n

mutual

/-- The MessagePack bytes; what has no form is nil. -/
def msgpack : Document → List UInt8
  | null => [0xc0]
  | bool false => [0xc2]
  | bool true => [0xc3]
  | int n => msgpackInt n
  | float x => 0xcb :: bigEndian 8 x.toBits.toNat
  | str s => msgpackStr s
  | bytes bs => msgpackBytes bs
  | seq items => msgpackSeqHeader items.length ++ msgpackItems items
  | map entries => msgpackMapHeader entries.length ++ msgpackEntries entries
  | unreadable => [0xc0]

/-- The items one after another. -/
def msgpackItems : List Document → List UInt8
  | [] => []
  | d :: ds => msgpack d ++ msgpackItems ds

/-- The entries one after another, each a key and a value. -/
def msgpackEntries : List (Document × Document) → List UInt8
  | [] => []
  | (k, d) :: es => msgpack k ++ (msgpack d ++ msgpackEntries es)

end

end Document

/-! ### Reading -/

namespace MessagePackReader

/-- The first `n` bytes and the rest. -/
def take? (n : Nat) (bs : List UInt8) : Option (List UInt8 × List UInt8) :=
  let head := bs.take n
  if head.length = n then some (head, bs.drop n) else none

/-- An unsigned number of `width` bytes. -/
def unsigned? (width : Nat) (bs : List UInt8) : Option (Nat × List UInt8) :=
  (take? width bs).map fun (head, rest) => (ofBigEndian head, rest)

/-- A two's complement number of `width` bytes. -/
def signed? (width : Nat) (bs : List UInt8) : Option (Int × List UInt8) :=
  (unsigned? width bs).map fun (n, rest) => (Int.bmod n (1 <<< (8 * width)), rest)

/-- A string of `n` bytes; what is not UTF-8 stays bytes. -/
def str? (n : Nat) (bs : List UInt8) : Option (Document × List UInt8) :=
  (take? n bs).map fun (head, rest) =>
    (match String.fromUTF8? ⟨head.toArray⟩ with
      | some s => .str s
      | none => .bytes head, rest)

/-- Bytes that are not marked as text. -/
def bytes? (n : Nat) (bs : List UInt8) : Option (Document × List UInt8) :=
  (take? n bs).map fun (head, rest) => (.bytes head, rest)

/-- An extension of `n` bytes, after its type. -/
def extension? (n : Nat) (bs : List UInt8) : Option (Document × List UInt8) :=
  (take? (n + 1) bs).map fun (_, rest) => (.unreadable, rest)

/-- What the first byte of an item says. -/
inductive Header where
  | scalar (d : Document)
  | unsigned (width : Nat)
  | signed (width : Nat)
  | float32
  | float64
  | str (length : Nat)
  | strOf (width : Nat)
  | bytesOf (width : Nat)
  | extension (length : Nat)
  | extensionOf (width : Nat)
  | seq (length : Nat)
  | seqOf (width : Nat)
  | map (length : Nat)
  | mapOf (width : Nat)

/-- The header of a first byte; there is none for the byte that the format leaves unused. -/
def Header.ofByte? (b : UInt8) : Option Header :=
  let n := b.toNat
  if n < 0x80 then some (.scalar (.int n))
  else if n < 0x90 then some (.map (n - 0x80))
  else if n < 0xa0 then some (.seq (n - 0x90))
  else if n < 0xc0 then some (.str (n - 0xa0))
  else if 0xe0 ≤ n then some (.scalar (.int (n - 0x100)))
  else match n with
    | 0xc0 => some (.scalar .null)
    | 0xc2 => some (.scalar (.bool false))
    | 0xc3 => some (.scalar (.bool true))
    | 0xc4 => some (.bytesOf 1)
    | 0xc5 => some (.bytesOf 2)
    | 0xc6 => some (.bytesOf 4)
    | 0xc7 => some (.extensionOf 1)
    | 0xc8 => some (.extensionOf 2)
    | 0xc9 => some (.extensionOf 4)
    | 0xca => some .float32
    | 0xcb => some .float64
    | 0xcc => some (.unsigned 1)
    | 0xcd => some (.unsigned 2)
    | 0xce => some (.unsigned 4)
    | 0xcf => some (.unsigned 8)
    | 0xd0 => some (.signed 1)
    | 0xd1 => some (.signed 2)
    | 0xd2 => some (.signed 4)
    | 0xd3 => some (.signed 8)
    | 0xd4 => some (.extension 1)
    | 0xd5 => some (.extension 2)
    | 0xd6 => some (.extension 4)
    | 0xd7 => some (.extension 8)
    | 0xd8 => some (.extension 16)
    | 0xd9 => some (.strOf 1)
    | 0xda => some (.strOf 2)
    | 0xdb => some (.strOf 4)
    | 0xdc => some (.seqOf 2)
    | 0xdd => some (.seqOf 4)
    | 0xde => some (.mapOf 2)
    | 0xdf => some (.mapOf 4)
    | _ => none

mutual

/-- One item.  `depth` is how many containers may still be opened. -/
def value? : Nat → Nat → List UInt8 → Option (Document × List UInt8)
  | 0, _, _ => none
  | _ + 1, _, [] => none
  | fuel + 1, depth, b :: bs => do
    match ← Header.ofByte? b with
    | .scalar d => some (d, bs)
    | .unsigned width => (unsigned? width bs).map fun (n, bs) => (.int n, bs)
    | .signed width => (signed? width bs).map fun (n, bs) => (.int n, bs)
    | .float32 => (unsigned? 4 bs).map fun (n, bs) =>
      (.float (Float32.ofBits (UInt32.ofNat n)).toFloat, bs)
    | .float64 => (unsigned? 8 bs).map fun (n, bs) => (.float (Float.ofBits (UInt64.ofNat n)), bs)
    | .str n => str? n bs
    | .strOf width =>
      let (n, bs) ← unsigned? width bs
      str? n bs
    | .bytesOf width =>
      let (n, bs) ← unsigned? width bs
      bytes? n bs
    | .extension n => extension? n bs
    | .extensionOf width =>
      let (n, bs) ← unsigned? width bs
      extension? n bs
    | .seq n => seq? fuel depth n bs
    | .seqOf width =>
      let (n, bs) ← unsigned? width bs
      seq? fuel depth n bs
    | .map n => map? fuel depth n bs
    | .mapOf width =>
      let (n, bs) ← unsigned? width bs
      map? fuel depth n bs

/-- A sequence of `n` items, after its header. -/
def seq? : Nat → Nat → Nat → List UInt8 → Option (Document × List UInt8)
  | 0, _, _, _ => none
  | _ + 1, 0, _, _ => none
  | fuel + 1, depth + 1, n, bs => (items? fuel depth n bs).map fun (ds, bs) => (.seq ds, bs)

/-- A map of `n` entries, after its header. -/
def map? : Nat → Nat → Nat → List UInt8 → Option (Document × List UInt8)
  | 0, _, _, _ => none
  | _ + 1, 0, _, _ => none
  | fuel + 1, depth + 1, n, bs => (entries? fuel depth n bs).map fun (es, bs) => (.map es, bs)

/-- Exactly `n` items. -/
def items? : Nat → Nat → Nat → List UInt8 → Option (List Document × List UInt8)
  | _, _, 0, bs => some ([], bs)
  | 0, _, _ + 1, _ => none
  | fuel + 1, depth, n + 1, bs => do
    let (d, bs) ← value? fuel depth bs
    let (ds, bs) ← items? fuel depth n bs
    return (d :: ds, bs)

/-- Exactly `n` entries. -/
def entries? : Nat → Nat → Nat → List UInt8 → Option (List (Document × Document) × List UInt8)
  | _, _, 0, bs => some ([], bs)
  | 0, _, _ + 1, _ => none
  | fuel + 1, depth, n + 1, bs => do
    let (k, bs) ← value? fuel depth bs
    let (d, bs) ← value? fuel depth bs
    let (es, bs) ← entries? fuel depth n bs
    return ((k, d) :: es, bs)

end

end MessagePackReader

/-- Reads the first item, which nests at most `depth` containers; later bytes are ignored.  At most
three calls of the reader share a byte, which bounds the fuel. -/
def Document.ofMessagePack? (depth : Nat) (bs : List UInt8) : Option Document :=
  (MessagePackReader.value? (3 * bs.length + 3) depth bs).map (·.1)

end ReactiveState
