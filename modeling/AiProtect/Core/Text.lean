import Mathlib.Algebra.Ring.Nat

/-! # Text

The string functions of the standard library that the connector uses, where Lean's
own differ: lowercasing and trimming follow Unicode, decoding works on byte lists
and can replace what is malformed. A byte of ASCII is a character of its own in every
byte list, so text can be decoded, searched and compared around it byte by byte.
-/

namespace AiProtect

/-- The Unicode character data that lowercasing reads for characters outside ASCII. -/
structure Unicode where
  lower : Char → List Char
  cased : Char → Bool
  caseIgnorable : Char → Bool

namespace Unicode

variable (unicode : Unicode)

def ignorableThenCased (chars : List Char) : Bool :=
  (chars.dropWhile unicode.caseIgnorable).head?.any unicode.cased

/-- A capital sigma at the end of a word becomes the final form. -/
def lowerSigma (before after : List Char) : Char :=
  if unicode.ignorableThenCased before && !unicode.ignorableThenCased after then 'ς' else 'σ'

def lowerChar (char : Char) : List Char := if char.toNat < 128 then [char.toLower] else unicode.lower char

/-- The characters before the text stand in `before`, the nearest first. -/
def lowerChars (before : List Char) : List Char → List Char
  | [] => []
  | char :: rest =>
      (if char = 'Σ' then [unicode.lowerSigma before rest] else unicode.lowerChar char) ++
        lowerChars (char :: before) rest

/-- `str::to_lowercase`. -/
def toLowercase (text : String) : String := String.ofList (unicode.lowerChars [] text.toList)

end Unicode

/-- `char::is_whitespace`. -/
def isWhitespace (char : Char) : Bool :=
  (9 ≤ char.toNat && char.toNat ≤ 13) || (0x2000 ≤ char.toNat && char.toNat ≤ 0x200a) ||
    [0x20, 0x85, 0xa0, 0x1680, 0x2028, 0x2029, 0x202f, 0x205f, 0x3000].contains char.toNat

def trim (text : String) : String :=
  String.ofList ((text.toList.dropWhile isWhitespace).reverse.dropWhile isWhitespace).reverse

def parseDigits (limit : Nat) : Nat → List Char → Option Nat
  | value, [] => some value
  | value, char :: rest =>
      if '0' ≤ char ∧ char ≤ '9' then
        let next := value * 10 + (char.toNat - '0'.toNat)
        if next < limit then parseDigits limit next rest else none
      else none

/-- `str::parse::<u32>`: decimal digits, with a plus sign in front or not. -/
def parseU32 (text : String) : Option Nat :=
  match text.toList with
  | [] | ['+'] => none
  | '+' :: digits => parseDigits (2 ^ 32) 0 digits
  | digits => parseDigits (2 ^ 32) 0 digits

/-- The text before the first `separator`. -/
def splitFirst (separator : Char) (text : String) : String :=
  String.ofList (text.toList.takeWhile fun char => char ≠ separator)

namespace Utf8

def within (low high : Nat) (byte : UInt8) : Bool := decide (low ≤ byte.toNat) && decide (byte.toNat ≤ high)

/-- How many bytes follow the first byte of a character, and the range of the second. -/
def shape (first : UInt8) : Option (Nat × Nat × Nat) :=
  if within 0xc2 0xdf first then some (1, 0x80, 0xbf)
  else if within 0xe0 0xe0 first then some (2, 0xa0, 0xbf)
  else if within 0xe1 0xec first || within 0xee 0xef first then some (2, 0x80, 0xbf)
  else if within 0xed 0xed first then some (2, 0x80, 0x9f)
  else if within 0xf0 0xf0 first then some (3, 0x90, 0xbf)
  else if within 0xf1 0xf3 first then some (3, 0x80, 0xbf)
  else if within 0xf4 0xf4 first then some (3, 0x80, 0x8f)
  else none

/-- The well-formed bytes after the first one: the second in its own range, the others
    plain continuation bytes, up to `count` of them. -/
def continuation (count low high : Nat) (bytes : List UInt8) : List UInt8 :=
  match count, bytes with
  | count + 1, byte :: rest =>
      if within low high byte then byte :: continuation count 0x80 0xbf rest else []
  | _, _ => []

def codePoint (lead : Nat) (bytes : List UInt8) : Nat :=
  bytes.foldl (fun code byte => code * 64 + byte.toNat % 64) lead

/-- The bits a first byte contributes when `count` bytes follow. -/
def leadBits (count : Nat) (first : UInt8) : Nat := first.toNat % 2 ^ (6 - count)

/-- The first character and the bytes it takes; without a character, the bytes of the
    longest start of one. -/
def next (first : UInt8) (rest : List UInt8) : Option Char × Nat :=
  if first.toNat < 128 then (some (Char.ofNat first.toNat), 1)
  else
    match shape first with
    | none => (none, 1)
    | some (count, low, high) =>
        let more := continuation count low high rest
        if more.length = count then (some (Char.ofNat (codePoint (leadBits count first) more)), 1 + count)
        else (none, 1 + more.length)

/-- The characters of a byte string; `none` for each malformed stretch. -/
def chunks : Nat → List UInt8 → List (Option Char)
  | 0, _ | _, [] => []
  | fuel + 1, first :: rest =>
      (next first rest).1 :: chunks fuel (rest.drop ((next first rest).2 - 1))

section Locality

variable {byte first : UInt8} {front rest bytes : List UInt8}

theorem low_of_shape {count low high : Nat} (shaped : shape first = some (count, low, high)) : 128 ≤ low := by
  simp only [shape] at shaped
  repeat' split at shaped
  all_goals simp at shaped
  all_goals omega

theorem length_continuation_le (count low high : Nat) (bytes : List UInt8) :
    (continuation count low high bytes).length ≤ bytes.length := by
  induction count generalizing low high bytes with
  | zero => simp [continuation]
  | succ count ih =>
      cases bytes with
      | nil => simp [continuation]
      | cons byte rest =>
          simp only [continuation]
          split
          · exact Nat.succ_le_succ (ih 0x80 0xbf rest)
          · exact Nat.zero_le _

/-- A byte of ASCII continues no character. -/
theorem continuation_append (count low high : Nat) (ascii : byte.toNat < 128) (wide : 128 ≤ low) :
    continuation count low high (front ++ byte :: rest) = continuation count low high front := by
  induction count generalizing low high front with
  | zero => simp [continuation]
  | succ count ih =>
      cases front with
      | nil =>
          have outside : within low high byte = false := by
            simp only [within, Bool.and_eq_false_iff, decide_eq_false_iff_not]
            left
            omega
          simp [continuation, outside]
      | cons next front => simp only [List.cons_append, continuation, ih 0x80 0xbf (Nat.le_refl _)]

theorem next_append (ascii : byte.toNat < 128) : next first (front ++ byte :: rest) = next first front := by
  simp only [next]
  split
  · rfl
  · split
    · rfl
    · rename_i shaped
      rw [continuation_append _ _ _ ascii (low_of_shape shaped)]

theorem next_le (first : UInt8) (rest : List UInt8) : (next first rest).2 - 1 ≤ rest.length := by
  simp only [next]
  split
  · simp
  · split
    · simp
    · rename_i count low high _
      have few := length_continuation_le count low high rest
      split
      · simp only
        omega
      · simp only
        omega

theorem chunks_fuel {fuel : Nat} (enough : bytes.length ≤ fuel) :
    chunks fuel bytes = chunks bytes.length bytes := by
  induction fuel using Nat.strong_induction_on generalizing bytes with
  | _ fuel ih =>
      cases bytes with
      | nil => cases fuel <;> rfl
      | cons first rest =>
          cases fuel with
          | zero => simp at enough
          | succ fuel =>
              have shorter : (rest.drop ((next first rest).2 - 1)).length ≤ rest.length := by simp
              simp only [List.length_cons] at enough
              simp only [List.length_cons, chunks]
              rw [ih fuel (Nat.lt_succ_self _) (by omega), ← ih rest.length (by omega) shorter]

/-- Text decodes on both sides of a byte of ASCII by itself. -/
theorem chunks_append (ascii : byte.toNat < 128) :
    chunks (front ++ byte :: rest).length (front ++ byte :: rest) =
      chunks front.length front ++ some (Char.ofNat byte.toNat) :: chunks rest.length rest := by
  induction size : front.length using Nat.strong_induction_on generalizing front with
  | _ length ih =>
      cases front with
      | nil =>
          subst size
          simp [chunks, next, ascii]
      | cons first front =>
          have inside := next_le first front
          have left : chunks front.length (front.drop ((next first front).2 - 1)) =
              chunks (front.drop ((next first front).2 - 1)).length (front.drop ((next first front).2 - 1)) :=
            chunks_fuel (by simp)
          have fewer : (front.drop ((next first front).2 - 1)).length < length := by
            rw [← size, List.length_cons, List.length_drop]
            omega
          rw [List.length_cons] at size
          simp only [List.cons_append, List.length_cons, ← size, chunks, next_append ascii]
          rw [List.drop_append_of_le_length inside, chunks_fuel (by simp), left, ih _ fewer rfl]

end Locality

/-- The bytes of a text. -/
def encode (text : String) : List UInt8 := text.toByteArray.data.toList

theorem encode_eq_flatMap (text : String) : encode text = text.toList.flatMap String.utf8EncodeChar := by
  rw [encode, ← String.ofList_toList (s := text), String.toByteArray_ofList, List.utf8Encode,
    List.toList_data_toByteArray, String.toList_ofList]

theorem encode_append (first second : String) : encode (first ++ second) = encode first ++ encode second := by
  simp only [encode_eq_flatMap, String.toList_append, List.flatMap_append]

theorem encode_injective {first second : String} (same : encode first = encode second) : first = second :=
  String.toByteArray_inj.mp (ByteArray.ext (Array.toList_inj.mp same))

theorem length_encode (text : String) : (encode text).length = text.utf8ByteSize := by
  rw [encode, Array.length_toList]
  rfl

/-- A byte of ASCII encodes its own character only. -/
theorem eq_of_mem_utf8EncodeChar {char : Char} {byte : UInt8} (member : byte ∈ String.utf8EncodeChar char)
    (ascii : byte.toNat < 128) : char.toNat = byte.toNat := by
  have code : char.toNat = char.val.toNat := rfl
  simp only [String.utf8EncodeChar] at member
  rw [code]
  split at member
  · rw [List.mem_singleton.mp member, UInt8.toNat_ofNat']
    omega
  · exfalso
    have high : ∀ code, 128 ≤ code → code < 256 → byte ≠ UInt8.ofNat code := by
      rintro code low bound rfl
      rw [UInt8.toNat_ofNat'] at ascii
      omega
    split at member
    · simp only [List.mem_cons, List.not_mem_nil, or_false] at member
      rcases member with same | same <;> exact high _ (by omega) (by omega) same
    · split at member
      · simp only [List.mem_cons, List.not_mem_nil, or_false] at member
        rcases member with same | same | same <;> exact high _ (by omega) (by omega) same
      · simp only [List.mem_cons, List.not_mem_nil, or_false] at member
        rcases member with same | same | same | same <;> exact high _ (by omega) (by omega) same

theorem exists_char_of_mem_encode {text : String} {byte : UInt8} (member : byte ∈ encode text)
    (ascii : byte.toNat < 128) : ∃ char ∈ text.toList, char.toNat = byte.toNat := by
  rw [encode_eq_flatMap] at member
  obtain ⟨char, inside, encoded⟩ := List.mem_flatMap.mp member
  exact ⟨char, inside, eq_of_mem_utf8EncodeChar encoded ascii⟩

/-- Text begins with text exactly if its bytes do. -/
theorem encode_prefix_iff {first second : String} :
    encode first <+: encode second ↔ first.toList <+: second.toList := by
  constructor
  · rintro ⟨rest, bytes⟩
    have whole : second.toByteArray.extract 0 first.utf8ByteSize = first.toByteArray := by
      apply ByteArray.ext
      rw [ByteArray.data_extract, ← Array.toList_inj, Array.toList_extract, List.extract_eq_take_drop]
      change ((encode second).drop 0).take _ = encode first
      rw [← bytes, List.drop_zero]
      exact List.take_left' (length_encode first)
    have inside : first.utf8ByteSize ≤ second.utf8ByteSize := by
      rw [← length_encode, ← length_encode, ← bytes, List.length_append]
      exact Nat.le_add_right _ _
    have boundary : String.Pos.Raw.IsValid second ⟨first.utf8ByteSize⟩ :=
      String.Pos.Raw.isValid_iff_isValidUTF8_extract_zero.mpr ⟨inside, whole ▸ first.isValidUTF8⟩
    obtain ⟨start, after, split, position⟩ := String.Pos.Raw.isValid_iff_exists_append.mp boundary
    have size : (encode first).length = (encode start).length := by
      rw [length_encode, length_encode]
      exact congrArg String.Pos.Raw.byteIdx position
    rw [split, encode_append] at bytes
    rw [split, encode_injective (List.append_inj bytes size).1, String.toList_append]
    exact List.prefix_append _ _
  · rintro ⟨rest, chars⟩
    have split : second = first ++ String.ofList rest := String.toList_inj.mp (by simp [chars])
    rw [split, encode_append]
    exact List.prefix_append _ _

end Utf8

/-- `str::from_utf8`. -/
def fromUtf8 (bytes : List UInt8) : Option String :=
  ((Utf8.chunks bytes.length bytes).mapM id).map String.ofList

/-- `String::from_utf8_lossy`. -/
def fromUtf8Lossy (bytes : List UInt8) : String :=
  String.ofList ((Utf8.chunks bytes.length bytes).map fun char => char.getD '\uFFFD')

def hexDigit (value : Nat) : Char := if value < 10 then Char.ofNat (48 + value) else Char.ofNat (87 + value)

/-- `{:016x}`. -/
def hex16 (value : UInt64) : String :=
  String.ofList ((List.range 16).map fun i => hexDigit (value.toNat / 16 ^ (15 - i) % 16))

example : fromUtf8 [0x63, 0xc3, 0xa9, 0xe2, 0x82, 0xac, 0xf0, 0x9f, 0x98, 0x80] = some "cé€😀" := by decide +kernel

example : fromUtf8Lossy [0x61, 0xe2, 0x82, 0xff, 0x62] = "a\uFFFD\uFFFDb" := by decide +kernel

end AiProtect
