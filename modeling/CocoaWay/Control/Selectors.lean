import CocoaWay.Launch.State
import Mathlib.Algebra.Ring.Nat

/-!
# Selector texts

* `ProfileId`, `fromStr`, `ProfileId.toString` : the persistent identity of a profile and its text, 32 lower-case
  hexadecimal digits;
* `normalizeManagedDisplaySlot` : the slot a display name stands for;
* `toString_of_fromStr`, `fromStr_of_hex` : an identifier's text names one identity, and every text of that form other
  than the zeros names one;
* `normalize_of_slot` : a canonical slot stands for itself.
-/

namespace CocoaWay.Control

open Launch

/-! ## Texts -/

/-- `char::is_ascii_digit`. -/
def isAsciiDigit (c : Char) : Bool := 48 ≤ c.toNat && c.toNat ≤ 57

/-- `str::eq_ignore_ascii_case`. -/
def eqIgnoreAsciiCase (a b : String) : Bool := a.toList.map toAsciiLowercase = b.toList.map toAsciiLowercase

/-- `str::to_ascii_lowercase`. -/
def asciiLowercase (s : String) : String := String.ofList (s.toList.map toAsciiLowercase)

/-- `parse::<usize>`: an optional plus sign, then digits whose value fits 64 bits. -/
def parseUsize (s : String) : Option Nat :=
  let digits := match s.toList with
    | '+' :: rest => rest
    | all => all
  let value := digits.foldl (fun n c => 10 * n + (c.toNat - 48)) 0
  if !digits.isEmpty && digits.all isAsciiDigit && value < 2 ^ 64 then some value else none

variable {s : String} {id : ProfileId} {c : Char}

theorem trim_of_no_space (h : ∀ c ∈ s.toList, isWhitespace c = false) : trim s = s := by
  have hfront : s.toList.dropWhile isWhitespace = s.toList := by
    cases hs : s.toList with
    | nil => rfl
    | cons c cs =>
      rw [List.dropWhile_cons_of_neg]
      rw [h c (by simp [hs])]
      decide
  have hback : s.toList.reverse.dropWhile isWhitespace = s.toList.reverse := by
    cases hs : s.toList.reverse with
    | nil => rfl
    | cons c cs =>
      have hc : c ∈ s.toList := List.mem_reverse.1 (by simp [hs])
      rw [List.dropWhile_cons_of_neg]
      rw [h c hc]
      decide
  unfold trim
  rw [hfront, hback, List.reverse_reverse, String.ofList_toList]

/-! ## Profile identifiers -/

@[ext] structure ProfileId where
  bytes : List (Fin 256)
  size : bytes.length = 16
  deriving DecidableEq

namespace ProfileId

/-- `ProfileId::UNSAVED`. -/
def unsaved : ProfileId := ⟨List.replicate 16 0, rfl⟩

def isSaved (id : ProfileId) : Bool := id ≠ unsaved

/-- The identity whose first byte is `n` and whose other bytes are zero. -/
def ofByte (n : Nat) : ProfileId := ⟨Fin.ofNat 256 n :: List.replicate 15 0, rfl⟩

end ProfileId

def isLowerHex (c : Char) : Bool := isAsciiDigit c || (97 ≤ c.toNat && c.toNat ≤ 102)

def hexDigit (n : Nat) : Char := Char.ofNat (if n < 10 then 48 + n else 87 + n)

def hexValue (c : Char) : Nat := if c.toNat ≤ 57 then c.toNat - 48 else c.toNat - 87

/-- The digits of `Display for ProfileId`. -/
def writeBytes (bytes : List (Fin 256)) : List Char :=
  bytes.flatMap fun b => [hexDigit (b.val / 16), hexDigit (b.val % 16)]

def ProfileId.toString (id : ProfileId) : String := String.ofList (writeBytes id.bytes)

/-- `u8::from_str_radix` of every pair of digits. -/
def readBytes : List Char → List (Fin 256)
  | a :: b :: rest => Fin.ofNat 256 (16 * hexValue a + hexValue b) :: readBytes rest
  | _ => []

theorem readBytes_length : ∀ cs : List Char, (readBytes cs).length = cs.length / 2
  | [] => rfl
  | [_] => by simp [readBytes]
  | _ :: _ :: rest => by
    have ih := readBytes_length rest
    simp only [readBytes, List.length_cons, ih]
    omega

/-- `ProfileId::from_str`. The source counts bytes: a text on which that differs has a character the second test
refuses. -/
def fromStr (value : String) : Except String ProfileId :=
  if hlen : value.toList.length = 32 then
    if value.toList.all isLowerHex then
      let id : ProfileId := ⟨readBytes value.toList, by rw [readBytes_length, hlen]⟩
      if id.isSaved then .ok id else .error "the all-zero profile ID is reserved for unsaved drafts"
    else .error "profile ID must contain exactly 32 lowercase hexadecimal digits"
  else .error "profile ID must contain exactly 32 lowercase hexadecimal digits"

theorem hexValue_lt (h : isLowerHex c = true) : hexValue c < 16 := by
  unfold isLowerHex isAsciiDigit at h
  unfold hexValue
  simp only [Bool.or_eq_true, Bool.and_eq_true, decide_eq_true_eq] at h
  split <;> omega

theorem hexDigit_hexValue (h : isLowerHex c = true) : hexDigit (hexValue c) = c := by
  have hval : (if hexValue c < 10 then 48 + hexValue c else 87 + hexValue c) = c.toNat := by
    unfold isLowerHex isAsciiDigit at h
    unfold hexValue
    simp only [Bool.or_eq_true, Bool.and_eq_true, decide_eq_true_eq] at h
    split <;> split <;> omega
  unfold hexDigit
  rw [hval]
  exact Char.ofNat_toNat c

/-- Digits read and written again are the same digits. -/
theorem writeBytes_readBytes : ∀ cs : List Char, cs.length % 2 = 0 → (∀ c ∈ cs, isLowerHex c = true) →
    writeBytes (readBytes cs) = cs
  | [], _, _ => rfl
  | [_], h, _ => absurd h (by simp)
  | a :: b :: rest, h, hhex => by
    have ha : isLowerHex a = true := hhex a (by simp)
    have hb : isLowerHex b = true := hhex b (by simp)
    have ha16 := hexValue_lt ha
    have hb16 := hexValue_lt hb
    have hrest : writeBytes (readBytes rest) = rest :=
      writeBytes_readBytes rest (by simp only [List.length_cons] at h; omega) fun c hc => hhex c (by simp [hc])
    have hmod : (16 * hexValue a + hexValue b) % 256 = 16 * hexValue a + hexValue b := by omega
    have hhi : (16 * hexValue a + hexValue b) / 16 = hexValue a := by omega
    have hlo : (16 * hexValue a + hexValue b) % 16 = hexValue b := by omega
    show hexDigit ((16 * hexValue a + hexValue b) % 256 / 16) :: hexDigit ((16 * hexValue a + hexValue b) % 256 % 16) ::
      writeBytes (readBytes rest) = a :: b :: rest
    rw [hmod, hhi, hlo, hexDigit_hexValue ha, hexDigit_hexValue hb, hrest]

theorem hexValue_hexDigit {n : Nat} (h : n < 16) : hexValue (hexDigit n) = n := by
  have hall : ∀ n : Fin 16, hexValue (hexDigit n) = n := by decide
  exact hall ⟨n, h⟩

/-- Bytes written and read again are the same bytes. -/
theorem readBytes_writeBytes : ∀ bytes : List (Fin 256), readBytes (writeBytes bytes) = bytes
  | [] => rfl
  | b :: bytes => by
    have ih := readBytes_writeBytes bytes
    show Fin.ofNat 256 (16 * hexValue (hexDigit (b.val / 16)) + hexValue (hexDigit (b.val % 16))) ::
      readBytes (writeBytes bytes) = b :: bytes
    rw [ih, hexValue_hexDigit (by omega), hexValue_hexDigit (by omega)]
    congr
    apply Fin.ext
    show (16 * (b.val / 16) + b.val % 16) % 256 = b.val
    omega

/-- An accepted text is the text of the identity it names, and that identity is a saved one. -/
theorem toString_of_fromStr (h : fromStr s = .ok id) : id.toString = s ∧ id.isSaved = true := by
  unfold fromStr at h
  split at h
  · next hlen =>
    split at h
    · next hhex =>
      dsimp only at h
      split at h
      · next hsaved =>
        obtain rfl := Except.ok.inj h
        refine ⟨?_, hsaved⟩
        show String.ofList (writeBytes (readBytes s.toList)) = s
        rw [writeBytes_readBytes s.toList (by rw [hlen]) (List.all_eq_true.1 hhex), String.ofList_toList]
      · exact absurd h nofun
    · exact absurd h nofun
  · exact absurd h nofun

/-- The text of `ProfileId::UNSAVED`. -/
def zeroText : String := "00000000000000000000000000000000"

theorem eq_unsaved_of_toString (h : id.toString = zeroText) : id.isSaved = false := by
  have hwrite : writeBytes id.bytes = zeroText.toList := by
    rw [← h]
    exact (String.toList_ofList).symm
  have hbytes : id.bytes = List.replicate 16 0 := by
    rw [← readBytes_writeBytes id.bytes, hwrite]
    decide
  simpa [ProfileId.isSaved, ProfileId.unsaved, ProfileId.ext_iff] using hbytes

/-- Every text of 32 lower-case hexadecimal digits but the zeros names an identity. -/
theorem fromStr_of_hex (hlen : s.toList.length = 32) (hhex : s.toList.all isLowerHex = true)
    (hne : s ≠ zeroText) : ∃ id, fromStr s = .ok id := by
  unfold fromStr
  rw [dif_pos hlen, if_pos hhex]
  dsimp only
  split
  · exact ⟨_, rfl⟩
  · next hsaved =>
    exfalso
    have hid : readBytes s.toList = List.replicate 16 0 := by
      simpa [ProfileId.isSaved, ProfileId.unsaved] using hsaved
    have hback := writeBytes_readBytes s.toList (by rw [hlen]) (List.all_eq_true.1 hhex)
    rw [hid] at hback
    refine hne ?_
    rw [← String.ofList_toList (s := s), ← hback]
    rfl

theorem ProfileId.toString_injective {id id' : ProfileId} (h : id.toString = id'.toString) : id = id' := by
  have hwrite : writeBytes id.bytes = writeBytes id'.bytes := by
    have := congrArg String.toList h
    rwa [ProfileId.toString, ProfileId.toString, String.toList_ofList, String.toList_ofList] at this
  apply ProfileId.ext
  rw [← readBytes_writeBytes id.bytes, hwrite, readBytes_writeBytes]

theorem isLowerHex_hexDigit {n : Nat} (h : n < 16) : isLowerHex (hexDigit n) = true := by
  have hall : ∀ n : Fin 16, isLowerHex (hexDigit n) = true := by decide
  exact hall ⟨n, h⟩

theorem writeBytes_length : ∀ bytes : List (Fin 256), (writeBytes bytes).length = 2 * bytes.length
  | [] => rfl
  | b :: bytes => by
    have ih := writeBytes_length bytes
    show (writeBytes bytes).length + 2 = 2 * (bytes.length + 1)
    omega

theorem fromStr_toString (h : id.isSaved = true) : fromStr id.toString = .ok id := by
  have htext : id.toString.toList = writeBytes id.bytes := String.toList_ofList
  have hlen : id.toString.toList.length = 32 := by rw [htext, writeBytes_length, id.size]
  have hhex : id.toString.toList.all isLowerHex = true := by
    rw [htext, List.all_eq_true]
    intro c hc
    obtain ⟨b, -, hb⟩ := List.mem_flatMap.1 hc
    have hlt := b.isLt
    rcases List.mem_pair.1 hb with rfl | rfl
    · exact isLowerHex_hexDigit (by omega)
    · exact isLowerHex_hexDigit (by omega)
  have hread : readBytes id.toString.toList = id.bytes := by rw [htext, readBytes_writeBytes]
  unfold fromStr
  rw [dif_pos hlen, if_pos hhex]
  simp only [hread, h, if_true]

/-! ## Display slots -/

/-- The slots that are display policies. -/
def policyKeywords : List String := ["auto", "default", "dedicated"]

def normalizeManagedDisplaySlot (value : String) : Except String String :=
  let value := trim value
  if value.isEmpty then .error "display name cannot be empty"
  else if value.toList.length > 64 then .error "display name cannot be longer than 64 characters"
  else
    let slot := displaySlotSlug value
    if slot ∈ policyKeywords then
      .error s!"'{slot}' is a display policy keyword; choose a distinct managed display name"
    else .ok slot

def isSlotCharacter (c : Char) : Bool := (97 ≤ c.toNat && c.toNat ≤ 122) || isAsciiDigit c

/-- A canonical slot: parts of lower-case letters and digits between single dashes, and no policy keyword. -/
def isSlot (s : String) : Bool :=
  !decide (s ∈ policyKeywords) && (splitDash s.toList).all fun part => !part.isEmpty && part.all isSlotCharacter

theorem join_splitDash : ∀ cs : List Char, ((splitDash cs).intersperse ['-']).flatten = cs
  | [] => rfl
  | c :: cs => by
    have ih := join_splitDash cs
    unfold splitDash
    cases hs : splitDash cs with
    | nil =>
      rw [hs] at ih
      obtain rfl : [] = cs := ih
      rfl
    | cons part parts =>
      rw [hs] at ih
      dsimp only
      split
      · next hc =>
        rw [List.intersperse_cons_cons, List.flatten_cons, List.flatten_cons, ih, hc]
        rfl
      · cases parts with
        | nil => simpa using ih
        | cons next rest =>
          rw [List.intersperse_cons_cons, List.flatten_cons] at ih ⊢
          rw [List.cons_append, ih]

/-- A character of the text is a dash or stands in a part. -/
theorem mem_splitDash : ∀ {cs : List Char} {c : Char}, c ∈ cs → c = '-' ∨ ∃ part ∈ splitDash cs, c ∈ part
  | d :: cs, c, h => by
    have ih : c ∈ cs → c = '-' ∨ ∃ part ∈ splitDash cs, c ∈ part := mem_splitDash
    unfold splitDash
    cases hs : splitDash cs with
    | nil =>
      have hjoin := join_splitDash cs
      rw [hs] at hjoin
      obtain rfl : [] = cs := hjoin
      exact .inr ⟨[d], by simp, h⟩
    | cons part parts =>
      rw [hs] at ih
      dsimp only
      by_cases hd : d = '-'
      · rw [if_pos hd]
        rcases List.mem_cons.1 h with rfl | h
        · exact .inl hd
        · exact (ih h).imp id fun ⟨p, hp, hc⟩ => ⟨p, by simp [hp], hc⟩
      · rw [if_neg hd]
        rcases List.mem_cons.1 h with rfl | h
        · exact .inr ⟨c :: part, by simp, by simp⟩
        · refine (ih h).imp id fun ⟨p, hp, hc⟩ => ?_
          rcases List.mem_cons.1 hp with rfl | hp
          · exact ⟨d :: p, by simp, by simp [hc]⟩
          · exact ⟨p, by simp [hp], hc⟩

theorem isSlot_parts (h : isSlot s = true) :
    s ∉ policyKeywords ∧ ∀ part ∈ splitDash s.toList, part.isEmpty = false ∧ ∀ c ∈ part, isSlotCharacter c = true := by
  unfold isSlot at h
  simpa only [Bool.and_eq_true, Bool.not_eq_true', decide_eq_false_iff_not, List.all_eq_true] using h

theorem isSlot_characters (h : isSlot s = true) : ∀ c ∈ s.toList, c = '-' ∨ isSlotCharacter c = true := by
  intro c hc
  rcases mem_splitDash hc with hdash | ⟨part, hpart, hc⟩
  · exact .inl hdash
  · exact .inr (((isSlot_parts h).2 part hpart).2 c hc)

theorem slotCharacter_kept (h : c = '-' ∨ isSlotCharacter c = true) :
    (if isAsciiAlphanumeric c then toAsciiLowercase c else '-') = c ∧ isWhitespace c = false := by
  rcases h with rfl | h
  · decide
  · unfold isSlotCharacter isAsciiDigit at h
    simp only [Bool.or_eq_true, Bool.and_eq_true, decide_eq_true_eq] at h
    have halnum : isAsciiAlphanumeric c = true := by
      unfold isAsciiAlphanumeric
      simp only [Bool.or_eq_true, Bool.and_eq_true, decide_eq_true_eq]
      omega
    have hspace : isWhitespace c = false := by
      unfold isWhitespace
      simp
      omega
    rw [if_pos halnum]
    unfold toAsciiLowercase
    rw [if_neg (by omega)]
    exact ⟨rfl, hspace⟩

theorem displaySlotSlug_of_slot (h : isSlot s = true) : displaySlotSlug s = s := by
  have hmap : (s.toList.map fun c => if isAsciiAlphanumeric c then toAsciiLowercase c else '-') = s.toList := by
    conv_rhs => rw [← List.map_id s.toList]
    exact List.map_congr_left fun c hc => (slotCharacter_kept (isSlot_characters h c hc)).1
  have hparts := (isSlot_parts h).2
  have hfilter : ((splitDash s.toList).filter fun part => !part.isEmpty) = splitDash s.toList :=
    List.filter_eq_self.2 fun part hpart => by rw [(hparts part hpart).1]; rfl
  have hne : s.toList ≠ [] := by
    intro hnil
    rw [hnil] at hparts
    exact absurd (hparts [] (by simp [splitDash])).1 (by decide)
  unfold displaySlotSlug
  dsimp only
  rw [hmap, hfilter, join_splitDash, if_neg (by simpa using hne), String.ofList_toList]

theorem normalize_of_slot (h : isSlot s = true) (hlen : s.toList.length ≤ 64) (hne : s ≠ "") :
    normalizeManagedDisplaySlot s = .ok s := by
  have htrim : trim s = s := trim_of_no_space fun c hc => (slotCharacter_kept (isSlot_characters h c hc)).2
  unfold normalizeManagedDisplaySlot
  dsimp only
  rw [htrim, displaySlotSlug_of_slot h, if_neg (by simpa using hne), if_neg (by omega), if_neg (isSlot_parts h).1]

end CocoaWay.Control
