import Mathlib.Data.Nat.Digits.Defs
import Mathlib.Logic.Function.Basic
import Mathlib.Tactic.Ring

/-!
# Byte strings

Byte strings are lists of bytes.  A `Block n` is a byte string of length `n`,
the value of a fixed-size array type; `bigEndian` writes a natural number into
a fixed number of bytes, dropping what does not fit; `utf8` is the encoding of
a text.
-/

namespace Trackward.Lib.Octets

/-- A byte string of any length. -/
abbrev Bytes := List UInt8

/-! ## Blocks -/

/-- A byte string of a fixed length. -/
structure Block (size : Nat) where
  bytes : Bytes
  length_eq : bytes.length = size
  deriving DecidableEq

namespace Block

variable {size : Nat}

@[ext]
theorem ext {first second : Block size}
    (same : first.bytes = second.bytes) : first = second := by
  cases first
  cases second
  cases same
  rfl

@[simp]
theorem length_bytes (block : Block size) : block.bytes.length = size :=
  block.length_eq

/-- The conversion of a slice into an array, which checks the length. -/
def ofBytes? (size : Nat) (bytes : Bytes) : Option (Block size) :=
  if fits : bytes.length = size then some ⟨bytes, fits⟩ else none

@[simp]
theorem ofBytes?_bytes (block : Block size) :
    ofBytes? size block.bytes = some block := by
  simp [ofBytes?]

theorem ofBytes?_eq_some_iff {bytes : Bytes} {block : Block size} :
    ofBytes? size bytes = some block ↔ bytes = block.bytes := by
  constructor
  · intro converted
    unfold ofBytes? at converted
    split at converted
    · rw [Option.some.injEq] at converted
      rw [← converted]
    · cases converted
  · rintro rfl
    exact ofBytes?_bytes block

/-- The block that repeats one byte. -/
def replicate (size : Nat) (byte : UInt8) : Block size :=
  ⟨List.replicate size byte, List.length_replicate⟩

/-- Two blocks before the rest of a stream are read back. -/
theorem append_inj {first second : Block size} {rest rest' : Bytes}
    (same : first.bytes ++ rest = second.bytes ++ rest') :
    first = second ∧ rest = rest' := by
  have split := List.append_inj same (by simp)
  exact ⟨Block.ext split.1, split.2⟩

end Block

/-- A digest of 32 bytes. -/
abbrev Digest := Block 32

/-! ## Big-endian numbers -/

/-- The `width` low bytes of a number, most significant byte first. -/
def bigEndian : Nat → Nat → Bytes
  | 0, _ => []
  | width + 1, value =>
      UInt8.ofNat (value / 256 ^ width) :: bigEndian width value

@[simp]
theorem length_bigEndian (width value : Nat) :
    (bigEndian width value).length = width := by
  induction width with
  | zero => rfl
  | succ width induction => simp [bigEndian, induction]

/-- Equal representations are equal modulo the range of the width. -/
theorem mod_eq_of_bigEndian_eq {width first second : Nat}
    (same : bigEndian width first = bigEndian width second) :
    first % 256 ^ width = second % 256 ^ width := by
  induction width with
  | zero => simp [Nat.mod_one]
  | succ width induction =>
      simp only [bigEndian, List.cons.injEq] at same
      have high : first / 256 ^ width % 256 = second / 256 ^ width % 256 := by
        simpa [UInt8.ofNat, UInt8.toNat] using
          congrArg UInt8.toNat same.1
      have low := induction same.2
      rw [pow_succ, Nat.mod_mul, Nat.mod_mul, high, low]

/-- A number that fits is determined by its representation. -/
theorem bigEndian_inj {width first second : Nat}
    (fits : first < 256 ^ width) (fits' : second < 256 ^ width)
    (same : bigEndian width first = bigEndian width second) :
    first = second := by
  have equal := mod_eq_of_bigEndian_eq same
  rwa [Nat.mod_eq_of_lt fits, Nat.mod_eq_of_lt fits'] at equal

/-! ## Texts -/

/-- The bytes of a text. -/
def utf8 (text : String) : Bytes :=
  text.toByteArray.data.toList

theorem utf8_injective : Function.Injective utf8 := by
  intro first second same
  apply String.toByteArray_inj.mp
  apply ByteArray.ext
  exact Array.toList_inj.mp same

/-- The bytes of a text are those of its characters. -/
theorem utf8_eq_flatMap (text : String) :
    utf8 text = text.toList.flatMap String.utf8EncodeChar := by
  have bytes :
      ∀ symbols : List Char,
        utf8 (String.ofList symbols) =
          symbols.flatMap String.utf8EncodeChar := by
    intro symbols
    simp [utf8, List.utf8Encode]
  rw [← bytes, String.ofList_toList]

/-- A character takes at most four bytes. -/
theorem length_utf8_ofList_le (symbols : List Char) :
    (utf8 (String.ofList symbols)).length ≤ 4 * symbols.length := by
  rw [utf8_eq_flatMap, String.toList_ofList]
  induction symbols with
  | nil => simp
  | cons symbol symbols induction =>
      have short := symbol.utf8Size_le_four
      simp only [List.flatMap_cons, List.length_append, List.length_cons,
        String.length_utf8EncodeChar]
      omega

/-- A character whose bytes are ASCII is the one of its only byte. -/
theorem exists_byte_of_ascii {symbol : Char}
    (ascii : ∀ byte ∈ String.utf8EncodeChar symbol, byte < 128) :
    ∃ byte,
      String.utf8EncodeChar symbol = [byte] ∧
        Char.ofNat byte.toNat = symbol := by
  have small : symbol.val.toNat ≤ 127 := by
    by_contra large
    have limit : (128 : UInt8).toNat = 128 := rfl
    unfold String.utf8EncodeChar at ascii
    simp only [UInt8.lt_iff_toNat_lt] at ascii
    split_ifs at ascii <;>
      simp only [List.forall_mem_cons, UInt8.toNat_ofNat'] at ascii <;>
      omega
  have one : symbol.utf8Size = 1 := Char.utf8Size_eq_one_iff.mpr small
  refine ⟨_, String.utf8EncodeChar_eq_singleton one, ?_⟩
  have bounded : symbol.val.toNat < 256 := by omega
  rw [UInt32.toNat_toUInt8, Nat.mod_eq_of_lt bounded]
  exact Char.ofNat_toNat symbol

end Trackward.Lib.Octets
