import CocoaWay.Lib.Json
import Mathlib.Algebra.Ring.Nat
import Mathlib.Data.List.Basic

/-!
# Compact JSON text

* `utf8`, `fromUtf8`, `utf8Length` : the bytes of a text, the text of some bytes, and how many bytes there are;
* `quoted`, `toVec` : a string and a value as JSON text without blanks, whatever the text of a decimal is;
* `lineFeed_not_mem_toVec` : the text is one line; `length_quoted_le` : an escape takes six bytes at most for one.
-/

namespace CocoaWay.Lib.JsonText

/-! ## Bytes -/

def lineFeed : UInt8 := 0x0A

def utf8 (text : String) : List UInt8 := text.toList.flatMap String.utf8EncodeChar

theorem utf8_append (s t : String) : utf8 (s ++ t) = utf8 s ++ utf8 t := by
  unfold utf8
  rw [String.toList_append, List.flatMap_append]

/-- `String::from_utf8`. -/
def fromUtf8 (bytes : List UInt8) : Option String := String.fromUTF8? ⟨bytes.toArray⟩

theorem fromUtf8_utf8 (text : String) : fromUtf8 (utf8 text) = some text := by
  have hbytes : (⟨(utf8 text).toArray⟩ : ByteArray) = text.toByteArray := by
    rw [← String.utf8Encode_toList]
    exact ByteArray.ext List.data_toByteArray.symm
  unfold fromUtf8 String.fromUTF8?
  rw [hbytes, dif_pos text.isValidUTF8]
  rfl

def utf8Length (text : String) : Nat := (text.toList.map Char.utf8Size).sum

def hexDigit (n : Nat) : UInt8 := UInt8.ofNat (if n < 10 then 0x30 + n else 0x57 + n)

/-- A character within a string. -/
def escape (c : Char) : List UInt8 :=
  if c = '"' then [0x5C, 0x22]
  else if c = '\\' then [0x5C, 0x5C]
  else if 0x20 ≤ c.toNat then String.utf8EncodeChar c
  else
    match c.toNat with
    | 0x08 => [0x5C, 0x62]
    | 0x09 => [0x5C, 0x74]
    | 0x0A => [0x5C, 0x6E]
    | 0x0C => [0x5C, 0x66]
    | 0x0D => [0x5C, 0x72]
    | n => [0x5C, 0x75, 0x30, 0x30, hexDigit (n / 16), hexDigit (n % 16)]

/-- The characters of the escape. -/
def escapeText (c : Char) : List Char :=
  if c = '"' then ['\\', '"']
  else if c = '\\' then ['\\', '\\']
  else if 0x20 ≤ c.toNat then [c]
  else
    match c.toNat with
    | 0x08 => ['\\', 'b']
    | 0x09 => ['\\', 't']
    | 0x0A => ['\\', 'n']
    | 0x0C => ['\\', 'f']
    | 0x0D => ['\\', 'r']
    | n => ['\\', 'u', '0', '0', Nat.digitChar (n / 16), Nat.digitChar (n % 16)]

def quoted (text : String) : List UInt8 := 0x22 :: (text.toList.flatMap escape ++ [0x22])

def numberText (decimal : String → List UInt8) : JsonNumber → List UInt8
  | .unsigned n => utf8 (toString n)
  | .negative n => 0x2D :: utf8 (toString n.natAbs)
  | .decimal text => decimal text

mutual

def toVec (decimal : String → List UInt8) : Json → List UInt8
  | .null => utf8 "null"
  | .bool b => utf8 (toString b)
  | .number n => numberText decimal n
  | .string text => quoted text
  | .array values => 0x5B :: (items decimal values ++ [0x5D])
  | .object entries => 0x7B :: (members decimal entries ++ [0x7D])

def items (decimal : String → List UInt8) : List Json → List UInt8
  | [] => []
  | [v] => toVec decimal v
  | v :: values => toVec decimal v ++ 0x2C :: items decimal values

def members (decimal : String → List UInt8) : List (String × Json) → List UInt8
  | [] => []
  | [(key, v)] => quoted key ++ 0x3A :: toVec decimal v
  | (key, v) :: entries => quoted key ++ 0x3A :: (toVec decimal v ++ 0x2C :: members decimal entries)

end

/-! ## One line -/

section

variable {decimal : String → List UInt8} {c : Char} {text : String} {b : UInt8}

/-- Of the bytes of a character only that of an ASCII character is below 128. -/
theorem toNat_of_mem_utf8EncodeChar (h : b ∈ String.utf8EncodeChar c) (hb : b.toNat < 0x80) : c.toNat = b.toNat := by
  have hval : c.val.toNat = c.toNat := rfl
  unfold String.utf8EncodeChar at h
  dsimp only at h
  rw [hval] at h
  split at h
  · rw [List.mem_singleton] at h
    subst h
    rw [UInt8.toNat_ofNat']
    omega
  · -- a byte of a longer encoding has its high bit set
    exfalso
    split at h
    · simp only [List.mem_cons, List.not_mem_nil, or_false] at h
      rcases h with rfl | rfl <;> rw [UInt8.toNat_ofNat'] at hb <;> omega
    · split at h
      · simp only [List.mem_cons, List.not_mem_nil, or_false] at h
        rcases h with rfl | rfl | rfl <;> rw [UInt8.toNat_ofNat'] at hb <;> omega
      · simp only [List.mem_cons, List.not_mem_nil, or_false] at h
        rcases h with rfl | rfl | rfl | rfl <;> rw [UInt8.toNat_ofNat'] at hb <;> omega

theorem lineFeed_not_mem_utf8EncodeChar (h : c.toNat ≠ 0x0A) : lineFeed ∉ String.utf8EncodeChar c :=
  fun hm => h (toNat_of_mem_utf8EncodeChar hm (by decide))

theorem lineFeed_not_mem_utf8 (h : ∀ c ∈ text.toList, c.toNat ≠ 0x0A) : lineFeed ∉ utf8 text := by
  intro hm
  obtain ⟨c, hc, hm⟩ := List.mem_flatMap.1 hm
  exact lineFeed_not_mem_utf8EncodeChar (h c hc) hm

theorem hexDigit_ne {n : Nat} (h : n < 16) : hexDigit n ≠ lineFeed := by
  intro he
  have hn := congrArg UInt8.toNat he
  unfold hexDigit at hn
  rw [UInt8.toNat_ofNat'] at hn
  change _ = 10 at hn
  split at hn <;> omega

theorem lineFeed_not_mem_escape (c : Char) : lineFeed ∉ escape c := by
  unfold escape
  split
  · decide
  · split
    · decide
    · split
      · next h => exact lineFeed_not_mem_utf8EncodeChar (by omega)
      · next h =>
        split
        · decide
        · decide
        · decide
        · decide
        · decide
        · have hhigh := hexDigit_ne (n := c.toNat / 16) (by omega)
          have hlow := hexDigit_ne (n := c.toNat % 16) (by omega)
          simp only [List.mem_cons, List.not_mem_nil, or_false, not_or]
          exact ⟨by decide, by decide, by decide, by decide, hhigh.symm, hlow.symm⟩

theorem lineFeed_not_mem_quoted (text : String) : lineFeed ∉ quoted text := by
  unfold quoted
  intro hm
  rcases List.mem_cons.1 hm with hm | hm
  · exact absurd hm (by decide)
  · rcases List.mem_append.1 hm with hm | hm
    · obtain ⟨c, -, hm⟩ := List.mem_flatMap.1 hm
      exact lineFeed_not_mem_escape c hm
    · exact absurd hm (by decide)

theorem lineFeed_not_mem_digits (n : Nat) : lineFeed ∉ utf8 (toString n) := by
  refine lineFeed_not_mem_utf8 fun c hc h => ?_
  rw [Nat.toString_eq_repr, Nat.toList_repr] at hc
  have hdigit := Nat.isDigit_of_mem_toDigits (by decide) (by decide) hc
  obtain rfl : c = Char.ofNat 0x0A := by rw [← h, Char.ofNat_toNat]
  exact absurd hdigit (by decide)

end

mutual

variable {decimal : String → List UInt8}

/-- The text of a value is one line, if those of its decimals are. -/
theorem lineFeed_not_mem_toVec (h : ∀ text, lineFeed ∉ decimal text) :
    ∀ v, lineFeed ∉ toVec decimal v
  | .null => by
    rw [toVec]
    decide
  | .bool b => by
    rw [toVec]
    cases b <;> decide
  | .number (.unsigned n) => lineFeed_not_mem_digits n
  | .number (.negative n) => by
    rw [toVec, numberText, List.mem_cons, not_or]
    exact ⟨by decide, lineFeed_not_mem_digits n.natAbs⟩
  | .number (.decimal text) => h text
  | .string text => lineFeed_not_mem_quoted text
  | .array values => by
    have hitems := lineFeed_not_mem_items h values
    rw [toVec, List.mem_cons, List.mem_append, not_or, not_or]
    exact ⟨by decide, hitems, by decide⟩
  | .object entries => by
    have hmembers := lineFeed_not_mem_members h entries
    rw [toVec, List.mem_cons, List.mem_append, not_or, not_or]
    exact ⟨by decide, hmembers, by decide⟩

theorem lineFeed_not_mem_items (h : ∀ text, lineFeed ∉ decimal text) :
    ∀ values, lineFeed ∉ items decimal values
  | [] => List.not_mem_nil
  | [v] => lineFeed_not_mem_toVec h v
  | v :: w :: values => by
    have hv := lineFeed_not_mem_toVec h v
    have hitems := lineFeed_not_mem_items h (w :: values)
    rw [items, List.mem_append, List.mem_cons, not_or, not_or]
    · exact ⟨hv, by decide, hitems⟩
    · exact List.cons_ne_nil w values

theorem lineFeed_not_mem_members (h : ∀ text, lineFeed ∉ decimal text) :
    ∀ entries, lineFeed ∉ members decimal entries
  | [] => List.not_mem_nil
  | [(key, v)] => by
    have hv := lineFeed_not_mem_toVec h v
    rw [members, List.mem_append, List.mem_cons, not_or, not_or]
    exact ⟨lineFeed_not_mem_quoted key, by decide, hv⟩
  | (key, v) :: e :: entries => by
    have hv := lineFeed_not_mem_toVec h v
    have hmembers := lineFeed_not_mem_members h (e :: entries)
    rw [members, List.mem_append, List.mem_cons, List.mem_append, List.mem_cons, not_or, not_or, not_or, not_or]
    · exact ⟨lineFeed_not_mem_quoted key, by decide, hv, by decide, hmembers⟩
    · exact List.cons_ne_nil e entries

end

/-! ## Length -/

theorem length_escape_le (c : Char) : (escape c).length ≤ 6 * c.utf8Size := by
  have hpos := Char.utf8Size_pos c
  unfold escape
  split
  · simp only [List.length_cons, List.length_nil]
    omega
  · split
    · simp only [List.length_cons, List.length_nil]
      omega
    · split
      · rw [String.length_utf8EncodeChar]
        omega
      · split <;> simp only [List.length_cons, List.length_nil] <;> omega

theorem length_quoted_le (text : String) : (quoted text).length ≤ 6 * utf8Length text + 2 := by
  have hchars : ∀ chars : List Char, (chars.flatMap escape).length ≤ 6 * (chars.map Char.utf8Size).sum := by
    intro chars
    induction chars with
    | nil => exact Nat.le_refl 0
    | cons c chars ih =>
      have hc := length_escape_le c
      rw [List.flatMap_cons, List.length_append, List.map_cons, List.sum_cons]
      omega
  have h := hchars text.toList
  unfold quoted utf8Length
  rw [List.length_cons, List.length_append, List.length_singleton]
  omega

end CocoaWay.Lib.JsonText
