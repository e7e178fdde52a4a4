import CocoaWay.Images.Grammar
import Mathlib.Algebra.Ring.Nat

/-!
# The image inventory

* `Sequence` : what the JSON reader takes from bytes; `parseAppleImageRecords` : a listing that is complete and not
  too large;
* `AppleImageRecord`, `appleImageRecord` : the record of an element;
* `listRecord`, `appleImageRowsFromOutput` : the rows of a listing;
* `WellFormed`, `actionable` : the records with a row; `Inventory` : what the rows promise; `inventory_rows`.
-/

namespace CocoaWay.Images
open CommandCache (Text ImageRow imageIdFromLabel)
open Lib (Json isHexDigit)

local instance : LawfulBEq Text := inferInstance

/-! ## The listing -/

def appleImageInventoryBytes : Nat := 8 * 1024 * 1024

def appleImageInventoryRows : Nat := 4096

/-- What `serde_json` reads from bytes as a sequence: the elements up to its end or to the first error, whether its
end is met, and whether only blanks follow. -/
structure Sequence where
  elements : List Json
  closed : Bool
  ended : Bool

/-- `visit_seq`: an element too many is an error, and so is an end that is not met. -/
def visitSeq (records : List Json) : List Json → Bool → Option (List Json)
  | [], closed => if closed then some records else none
  | record :: rest, closed =>
    if records.length = appleImageInventoryRows then none else visitSeq (records ++ [record]) rest closed

def parseAppleImageRecords (read : List UInt8 → Option Sequence) (bytes : List UInt8) : Option (List Json) :=
  if appleImageInventoryBytes < bytes.length then none
  else do
    let sequence ← read bytes
    let records ← visitSeq [] sequence.elements sequence.closed
    if sequence.ended then some records else none

/-! ## Records -/

structure AppleImageDescriptor where
  digest : Text

structure AppleImageConfiguration where
  name : Text
  descriptor : AppleImageDescriptor

structure AppleImageRecord where
  id : Text
  configuration : AppleImageConfiguration

def appleImageDescriptor (v : Json) : Option AppleImageDescriptor :=
  match Json.structFields ["digest"] v with
  | some [some digest] => digest.asStr.map fun digest => ⟨digest.toList⟩
  | _ => none

def appleImageConfiguration (v : Json) : Option AppleImageConfiguration :=
  match Json.structFields ["name", "descriptor"] v with
  | some [some name, some descriptor] => do
    let name ← name.asStr
    let descriptor ← appleImageDescriptor descriptor
    some ⟨name.toList, descriptor⟩
  | _ => none

/-- `AppleImageEntry`: any other element is `Invalid`. -/
def appleImageRecord (v : Json) : Option AppleImageRecord :=
  match Json.structFields ["id", "configuration"] v with
  | some [some id, some configuration] => do
    let id ← id.asStr
    let configuration ← appleImageConfiguration configuration
    some ⟨id.toList, configuration⟩
  | _ => none

namespace AppleImageRecord

def reference (record : AppleImageRecord) : Text := record.configuration.name

def digest (record : AppleImageRecord) : Text := record.configuration.descriptor.digest

def row (record : AppleImageRecord) : ImageRow where
  label := record.reference ++ "    ".toList ++ record.digest
  reference := some record.reference

end AppleImageRecord

/-! ## Rows -/

inductive Language
  | system | english | simplifiedChinese | traditionalChinese | japanese | korean | german | french | spanish | portuguese | russian
  deriving DecidableEq

def appleImageIncomplete : Text := "Incomplete image inventory. Some images could not be read; reload to retry.".toList

/-- The catalog has a translation of the warning for one language. -/
def tr (language : Language) (text : Text) : Text :=
  if language = .simplifiedChinese ∧ text = appleImageIncomplete then "镜像列表不完整。部分镜像无法读取，请重新加载以重试。".toList
  else text

/-- The rows so far, the references of rows, those that came again, and whether a record was left out. -/
structure Listing where
  rows : List ImageRow
  references : List Text
  duplicates : List Text
  incomplete : Bool

def listRecord (l : Listing) (element : Json) : Listing :=
  match appleImageRecord element with
  | none => { l with incomplete := true }
  | some record =>
    if !validAppleImageDigest record.digest || !eqIgnoreAsciiCase (record.digest.drop 7) record.id ||
        !validAppleImageReference record.reference record.digest then { l with incomplete := true }
    else if record.reference ∈ l.references then
      { l with duplicates := record.reference :: l.duplicates, incomplete := true }
    else { l with references := record.reference :: l.references, rows := l.rows ++ [record.row] }

def appleImageRowsFromOutput (read : List UInt8 → Option Sequence) (language : Language) (stdout : List UInt8)
    (success : Bool) :
    List ImageRow :=
  match parseAppleImageRecords read stdout with
  | none => [.message (tr language appleImageIncomplete)]
  | some records =>
    let listing := records.foldl listRecord ⟨[], [], [], !success⟩
    let rows := listing.rows.filter fun row => !row.reference.any (listing.duplicates.contains ·)
    if listing.incomplete then .message (tr language appleImageIncomplete) :: rows
    else if rows.isEmpty then rows ++ [.message "No local images found".toList]
    else rows

/-! ## The records with a row -/

structure WellFormed (record : AppleImageRecord) : Prop where
  digest : IsDigest record.digest
  id : eqIgnoreAsciiCase (record.digest.drop 7) record.id = true
  reference : IsReference record.digest record.reference

theorem wellFormed_iff {record : AppleImageRecord} : WellFormed record ↔ ¬ (!validAppleImageDigest record.digest ||
    !eqIgnoreAsciiCase (record.digest.drop 7) record.id || !validAppleImageReference record.reference record.digest) =
      true := by
  simp only [Bool.or_eq_true, Bool.not_eq_true', not_or, Bool.not_eq_false, validAppleImageDigest_iff,
    validAppleImageReference_iff]
  exact ⟨fun h => ⟨⟨h.digest, h.id⟩, h.reference⟩, fun h => ⟨h.1.1, h.1.2, h.2⟩⟩

instance (record : AppleImageRecord) : Decidable (WellFormed record) := decidable_of_iff' _ wellFormed_iff

/-- The record of an element, if it is well formed. -/
def wellFormedRecord (element : Json) : Option AppleImageRecord := (appleImageRecord element).filter (WellFormed ·)

/-- How many well-formed records have a reference. -/
def occurrences (elements : List Json) (reference : Text) : Nat :=
  ((elements.filterMap wellFormedRecord).map AppleImageRecord.reference).count reference

/-- The well-formed records whose reference is in no other one. -/
def actionable (elements : List Json) : List AppleImageRecord :=
  (elements.filterMap wellFormedRecord).filter fun record => occurrences elements record.reference = 1

/-- An element without a row. -/
def Excluded (elements : List Json) (element : Json) : Prop :=
  ∀ record, wellFormedRecord element = some record → occurrences elements record.reference ≠ 1

section Loop

variable {seen : List Json} {element : Json} {record : AppleImageRecord} {success : Bool} {l : Listing} {name : Text}

theorem occurrences_of_none (h : wellFormedRecord element = none) (name : Text) :
    occurrences (seen ++ [element]) name = occurrences seen name := by
  simp [occurrences, h]

theorem occurrences_of_some (h : wellFormedRecord element = some record) (name : Text) :
    occurrences (seen ++ [element]) name = occurrences seen name + if record.reference = name then 1 else 0 := by
  simp [occurrences, h, List.count_singleton]

/-- A reference that comes again takes its record out. -/
theorem actionable_again (h : wellFormedRecord element = some record) (hpos : 0 < occurrences seen record.reference) :
    actionable (seen ++ [element]) = (actionable seen).filter fun r => r.reference ≠ record.reference := by
  have hsingle : [element].filterMap wellFormedRecord = [record] := by simp [h]
  unfold actionable
  rw [List.filterMap_append, hsingle, List.filter_append, List.filter_filter]
  have hlast : ([record].filter fun r => occurrences (seen ++ [element]) r.reference = 1) = [] := by
    rw [List.filter_singleton, occurrences_of_some h, if_pos rfl, decide_eq_false (by omega)]
    rfl
  rw [hlast, List.append_nil]
  refine List.filter_congr fun r _ => ?_
  rw [occurrences_of_some h, ← Bool.decide_and, decide_eq_decide]
  by_cases hr : record.reference = r.reference
  · rw [if_pos hr]
    rw [hr] at hpos
    exact ⟨fun heq => by omega, fun hne => absurd hr.symm hne.1⟩
  · rw [if_neg hr, Nat.add_zero]
    exact (and_iff_right (Ne.symm hr)).symm

theorem actionable_added (h : wellFormedRecord element = some record) (hnew : occurrences seen record.reference = 0) :
    actionable (seen ++ [element]) = actionable seen ++ [record] := by
  have hsingle : [element].filterMap wellFormedRecord = [record] := by simp [h]
  unfold actionable
  rw [List.filterMap_append, hsingle, List.filter_append]
  have hlast : ([record].filter fun r => occurrences (seen ++ [element]) r.reference = 1) = [record] := by
    rw [List.filter_singleton, occurrences_of_some h, if_pos rfl, hnew, decide_eq_true rfl]
    rfl
  rw [hlast]
  congr 1
  refine List.filter_congr fun r hr => ?_
  have hpos : 0 < occurrences seen r.reference := List.count_pos_iff.2 (List.mem_map_of_mem hr)
  have hne : record.reference ≠ r.reference := fun heq => by
    rw [← heq, hnew] at hpos
    cases hpos
  rw [occurrences_of_some h, if_neg hne, Nat.add_zero]

theorem occurrences_pos (hmem : element ∈ seen) (h : wellFormedRecord element = some record) :
    0 < occurrences seen record.reference :=
  List.count_pos_iff.2 (List.mem_map_of_mem (List.mem_filterMap.2 ⟨element, hmem, h⟩))

theorem listRecord_eq (l : Listing) (element : Json) : listRecord l element =
    match wellFormedRecord element with
    | none => { l with incomplete := true }
    | some record =>
      if record.reference ∈ l.references then
        { l with duplicates := record.reference :: l.duplicates, incomplete := true }
      else { l with references := record.reference :: l.references, rows := l.rows ++ [record.row] } := by
  unfold listRecord wellFormedRecord
  cases appleImageRecord element with
  | none => rfl
  | some record =>
    dsimp only
    by_cases hvalid : WellFormed record
    · rw [if_neg (wellFormed_iff.1 hvalid), Option.filter_some, if_pos (decide_eq_true hvalid)]
    · rw [if_pos (not_not.1 fun hnot => hvalid (wellFormed_iff.2 hnot)), Option.filter_some,
        if_neg (by simpa using hvalid)]

/-- What the loop has made of the elements so far. -/
structure Listed (success : Bool) (seen : List Json) (l : Listing) : Prop where
  references : ∀ name, name ∈ l.references ↔ 0 < occurrences seen name
  duplicates : ∀ name, name ∈ l.duplicates ↔ 1 < occurrences seen name
  rows : ∃ kept : List AppleImageRecord, l.rows = kept.map AppleImageRecord.row ∧
    (kept.filter fun r => !l.duplicates.contains r.reference) = actionable seen
  incomplete : l.incomplete = true ↔ success = false ∨ ∃ element ∈ seen, Excluded seen element

theorem listed_nil (success : Bool) : Listed success [] ⟨[], [], [], !success⟩ where
  references _ := by simp [occurrences]
  duplicates _ := by simp [occurrences]
  rows := ⟨[], rfl, rfl⟩
  incomplete := by simp

theorem Listed.excluded (h : Listed success seen l) (hw : wellFormedRecord element = none) :
    Listed success (seen ++ [element]) { l with incomplete := true } where
  references name := by rw [occurrences_of_none hw, ← h.references]
  duplicates name := by rw [occurrences_of_none hw, ← h.duplicates]
  rows := by
    obtain ⟨kept, hkept, hfilter⟩ := h.rows
    refine ⟨kept, hkept, hfilter.trans ?_⟩
    simp [actionable, occurrences_of_none hw, hw]
  incomplete := by
    refine ⟨fun _ => .inr ⟨element, List.mem_append_right _ (List.mem_singleton.2 rfl), fun record hrecord => ?_⟩,
      fun _ => rfl⟩
    rw [hw] at hrecord
    cases hrecord

theorem Listed.again (h : Listed success seen l) (hw : wellFormedRecord element = some record)
    (hmem : record.reference ∈ l.references) :
    Listed success (seen ++ [element])
      { l with duplicates := record.reference :: l.duplicates, incomplete := true } where
  references name := by
    rw [occurrences_of_some hw, h.references]
    split
    next heq =>
      subst heq
      have hpos := (h.references _).1 hmem
      omega
    next => rw [Nat.add_zero]
  duplicates name := by
    rw [List.mem_cons, h.duplicates, occurrences_of_some hw]
    have hpos := (h.references _).1 hmem
    split
    next heq =>
      subst heq
      exact ⟨fun _ => by omega, fun _ => .inl rfl⟩
    next hne =>
      rw [Nat.add_zero]
      exact or_iff_right fun heq => hne heq.symm
  rows := by
    obtain ⟨kept, hkept, hfilter⟩ := h.rows
    refine ⟨kept, hkept, ?_⟩
    rw [actionable_again hw ((h.references _).1 hmem), ← hfilter, List.filter_filter]
    refine List.filter_congr fun r _ => ?_
    rw [List.contains_cons, Bool.not_or, decide_not, beq_eq_decide]
  incomplete := by
    refine ⟨fun _ => .inr ⟨element, List.mem_append_right _ (List.mem_singleton.2 rfl), fun record' hrecord => ?_⟩,
      fun _ => rfl⟩
    obtain rfl := Option.some.inj (hw.symm.trans hrecord)
    have hpos := (h.references _).1 hmem
    rw [occurrences_of_some hw, if_pos rfl]
    omega

theorem Listed.added (h : Listed success seen l) (hw : wellFormedRecord element = some record)
    (hnew : record.reference ∉ l.references) :
    Listed success (seen ++ [element])
      { l with references := record.reference :: l.references, rows := l.rows ++ [record.row] } := by
  have hzero : occurrences seen record.reference = 0 := by
    rw [h.references] at hnew
    omega
  have hdifferent : ∀ {element' : Json} {record' : AppleImageRecord}, element' ∈ seen →
      wellFormedRecord element' = some record' → record.reference ≠ record'.reference := fun hmem hw' heq => by
    have hpos := occurrences_pos hmem hw'
    rw [← heq, hzero] at hpos
    cases hpos
  refine ⟨fun name => ?_, fun name => ?_, ?_, ?_⟩
  · rw [List.mem_cons, h.references, occurrences_of_some hw]
    split
    next heq => exact ⟨fun _ => by omega, fun _ => .inl heq.symm⟩
    next hne =>
      rw [Nat.add_zero]
      exact or_iff_right fun heq => hne heq.symm
  · rw [h.duplicates, occurrences_of_some hw]
    split
    next heq =>
      rw [← heq, hzero]
      decide
    next => rw [Nat.add_zero]
  · obtain ⟨kept, hkept, hfilter⟩ := h.rows
    refine ⟨kept ++ [record], by rw [hkept, List.map_append, List.map_singleton], ?_⟩
    have hnot : l.duplicates.contains record.reference = false := by
      rw [← Bool.not_eq_true, List.contains_iff_mem, h.duplicates, hzero]
      decide
    rw [actionable_added hw hzero, List.filter_append, hfilter, List.filter_singleton, hnot]
    rfl
  · rw [h.incomplete]
    refine or_congr_right ⟨fun ⟨element', hmem, hexcluded⟩ => ?_, fun ⟨element', hmem, hexcluded⟩ => ?_⟩
    · refine ⟨element', List.mem_append_left _ hmem, fun record' hw' => ?_⟩
      rw [occurrences_of_some hw, if_neg (hdifferent hmem hw'), Nat.add_zero]
      exact hexcluded record' hw'
    · rcases List.mem_append.1 hmem with hmem | hmem
      · refine ⟨element', hmem, fun record' hw' => ?_⟩
        have hne := hexcluded record' hw'
        rwa [occurrences_of_some hw, if_neg (hdifferent hmem hw'), Nat.add_zero] at hne
      · obtain rfl := List.mem_singleton.1 hmem
        refine absurd ?_ (hexcluded record hw)
        rw [occurrences_of_some hw, if_pos rfl, hzero]

theorem Listed.step (h : Listed success seen l) (element : Json) :
    Listed success (seen ++ [element]) (listRecord l element) := by
  rw [listRecord_eq]
  cases hw : wellFormedRecord element with
  | none => exact h.excluded hw
  | some record =>
    dsimp only
    split
    next hmem => exact h.again hw hmem
    next hnew => exact h.added hw hnew

theorem listed_foldl (h : Listed success seen l) (elements : List Json) :
    Listed success (seen ++ elements) (elements.foldl listRecord l) := by
  induction elements generalizing seen l with
  | nil => rwa [List.append_nil]
  | cons element elements ih =>
    rw [List.append_cons]
    exact ih (h.step element)

end Loop

/-! ## The rows -/

theorem visitSeq_eq {records : List Json} (h : records.length ≤ appleImageInventoryRows) (elements : List Json)
    (closed : Bool) :
    visitSeq records elements closed =
      if closed = true ∧ records.length + elements.length ≤
        appleImageInventoryRows then some (records ++ elements) else none := by
  induction elements generalizing records with
  | nil =>
    rw [visitSeq, List.length_nil, Nat.add_zero, List.append_nil]
    simp only [h, and_true]
  | cons element elements ih =>
    rw [visitSeq]
    split
    next hfull =>
      rw [if_neg]
      rintro ⟨-, hlength⟩
      rw [List.length_cons] at hlength
      omega
    next hroom =>
      have hnext : (records ++ [element]).length ≤ appleImageInventoryRows := by
        rw [List.length_append, List.length_singleton]
        omega
      rw [ih hnext, List.length_append, List.length_singleton, List.length_cons, List.append_assoc,
        List.singleton_append,
        Nat.add_right_comm, Nat.add_assoc]

/-- The elements of a listing that is a complete array and not too large. -/
def Readable (read : List UInt8 → Option Sequence) (bytes : List UInt8) (elements : List Json) : Prop :=
  bytes.length ≤ appleImageInventoryBytes ∧ elements.length ≤ appleImageInventoryRows ∧
    read bytes = some ⟨elements, true, true⟩

variable {elements : List Json}

theorem parseAppleImageRecords_eq_some {read : List UInt8 → Option Sequence} {bytes : List UInt8} :
    parseAppleImageRecords read bytes = some elements ↔ Readable read bytes elements := by
  unfold parseAppleImageRecords Readable
  split
  next hlarge => exact ⟨nofun, fun h => absurd h.1 (not_le.2 hlarge)⟩
  next hsmall =>
    rw [and_iff_right (not_lt.1 hsmall), Option.bind_eq_bind, Option.bind_eq_some_iff]
    constructor
    · rintro ⟨⟨elements', closed, ended⟩, hread, hrecords⟩
      obtain ⟨records, hvisit, hend⟩ := Option.bind_eq_some_iff.1 hrecords
      rw [visitSeq_eq (Nat.zero_le _)] at hvisit
      obtain ⟨⟨hclosed, hlength⟩, hsame⟩ := Option.ite_none_right_eq_some.1 hvisit
      obtain ⟨hended, heq⟩ := Option.ite_none_right_eq_some.1 hend
      dsimp only at hclosed hlength hended hsame
      subst hclosed hended
      rw [List.nil_append] at hsame
      obtain rfl := Option.some.inj hsame
      obtain rfl := Option.some.inj heq
      exact ⟨by simpa using hlength, hread⟩
    · rintro ⟨hlength, hread⟩
      refine ⟨_, hread, ?_⟩
      rw [visitSeq_eq (Nat.zero_le _), if_pos ⟨rfl, by simpa using hlength⟩]
      rfl

theorem isWhitespace_hexDigit {c : Char} (h : isHexDigit c = true) : Launch.isWhitespace c = false := by
  have hbounds : 48 ≤ c.val.toNat ∧ c.val.toNat ≤ 102 := by
    simp only [isHexDigit, Char.isDigit, Bool.or_eq_true, Bool.and_eq_true, decide_eq_true_eq, Char.le_def,
      UInt32.le_iff_toNat_le, ge_iff_le] at h
    have hf : 'f'.val.toNat = 102 := rfl
    have ha : 'a'.val.toNat = 97 := rfl
    have hF : 'F'.val.toNat = 70 := rfl
    have hA : 'A'.val.toNat = 65 := rfl
    have h0 : '0'.val.toNat = 48 := rfl
    have h9 : '9'.val.toNat = 57 := rfl
    omega
  unfold Launch.isWhitespace Char.toNat
  simp only [Bool.or_eq_false_iff, Bool.and_eq_false_iff, decide_eq_false_iff_not, List.mem_cons,
    List.not_mem_nil, or_false]
  omega

theorem isWhitespace_digest {s : Text} (h : IsDigest s) : ∀ c ∈ s, Launch.isWhitespace c = false := by
  obtain ⟨hash, rfl, -, hhash⟩ := h
  intro c hc
  rcases List.mem_append.1 hc with hc | hc
  · have hall : "sha256:".toList.all fun c => !Launch.isWhitespace c := by decide
    simpa using List.all_eq_true.1 hall c hc
  · exact isWhitespace_hexDigit (hhash c hc)

theorem imageIdFromLabel_row {record : AppleImageRecord} (h : IsDigest record.digest) :
    imageIdFromLabel record.row.label record.reference = some record.digest := by
  have hplain := isWhitespace_digest h
  have hne : record.digest ≠ [] := by
    obtain ⟨hash, hdigest, -⟩ := h
    rw [hdigest]
    exact List.append_ne_nil_of_left_ne_nil (by decide) _
  have hdrop : record.digest.dropWhile Launch.isWhitespace = record.digest := by
    obtain ⟨c, rest, hdigest⟩ := List.exists_cons_of_ne_nil hne
    rw [hdigest, List.dropWhile_cons_of_neg]
    rw [hplain c (hdigest ▸ List.mem_cons_self)]
    decide
  have hblanks : ∀ c ∈ "    ".toList, Launch.isWhitespace c = true := List.all_eq_true.1 (by decide)
  have htake : record.digest.takeWhile (!Launch.isWhitespace ·) = record.digest :=
    List.takeWhile_eq_self_iff.2 fun c hc => by rw [hplain c hc]; rfl
  have hprefix : record.reference.isPrefixOf (record.reference ++ ("    ".toList ++ record.digest)) = true :=
    List.isPrefixOf_iff_prefix.2 (List.prefix_append _ _)
  unfold imageIdFromLabel AppleImageRecord.row CommandCache.firstWord
  dsimp only
  rw [List.append_assoc, if_pos hprefix, List.drop_left, List.dropWhile_append_of_pos hblanks, hdrop, htake, if_neg hne]

/-- The rows with a reference are those of the records, and each label has the digest of its record; the warning is
the first row if an element has no row, the command failed, or the listing is not complete or too large. -/
structure Inventory (read : List UInt8 → Option Sequence) (language : Language) (stdout : List UInt8) (success : Bool)
    (rows : List ImageRow) : Prop where
  readable : ∀ elements, Readable read stdout elements →
    rows.filter (·.reference.isSome) = (actionable elements).map AppleImageRecord.row
  unreadable : (∀ elements, ¬ Readable read stdout elements) → rows.filter (·.reference.isSome) = []
  warned : rows.head? = some (.message (tr language appleImageIncomplete)) ↔
    success = false ∨ (∀ elements, ¬ Readable read stdout elements) ∨
      ∃ elements, Readable read stdout elements ∧ ∃ element ∈ elements, Excluded elements element
  digests : ∀ elements, Readable read stdout elements → ∀ record ∈ actionable elements,
    imageIdFromLabel record.row.label record.reference = some record.digest

theorem tr_ne (language : Language) : tr language appleImageIncomplete ≠ "No local images found".toList := by
  unfold tr
  split <;> decide +kernel

theorem filter_rows (records : List AppleImageRecord) :
    (records.map AppleImageRecord.row).filter (·.reference.isSome) = records.map AppleImageRecord.row := by
  refine List.filter_eq_self.2 fun row hrow => ?_
  obtain ⟨record, -, rfl⟩ := List.mem_map.1 hrow
  rfl

theorem Listed.filter_rows {success : Bool} {l : Listing} (h : Listed success elements l) :
    (l.rows.filter fun row => !row.reference.any (l.duplicates.contains ·)) =
      (actionable elements).map AppleImageRecord.row := by
  obtain ⟨kept, hkept, hfilter⟩ := h.rows
  rw [hkept, ← hfilter, List.filter_map]
  rfl

theorem rows_readable {read : List UInt8 → Option Sequence} {stdout : List UInt8}
    (language : Language)
    (success : Bool) (h : Readable read stdout elements) : ∃ incomplete : Bool,
      (incomplete = true ↔ success = false ∨ ∃ element ∈ elements, Excluded elements element) ∧
      appleImageRowsFromOutput read language stdout success =
        if incomplete then .message (tr language appleImageIncomplete) :: (actionable elements).map AppleImageRecord.row
        else if ((actionable elements).map AppleImageRecord.row).isEmpty then [.message "No local images found".toList]
        else (actionable elements).map AppleImageRecord.row := by
  have hlisted := listed_foldl (listed_nil success) elements
  rw [List.nil_append] at hlisted
  refine ⟨_, hlisted.incomplete, ?_⟩
  unfold appleImageRowsFromOutput
  rw [parseAppleImageRecords_eq_some.2 h]
  dsimp only
  rw [hlisted.filter_rows]
  congr 1
  split
  next hempty => rw [List.isEmpty_iff.1 hempty, List.nil_append]
  · rfl

/-- What the rows of a listing are, and which references are in the grammar. -/
theorem inventory_rows (read : List UInt8 → Option Sequence) (language : Language) (stdout : List UInt8)
    (success : Bool) :
    Inventory read language stdout success (appleImageRowsFromOutput read language stdout success) ∧
      ∀ reference digest, validAppleImageReference reference digest = true ↔ IsReference digest reference := by
  refine ⟨?_, fun _ _ => validAppleImageReference_iff⟩
  have hdigests : ∀ elements, ∀ record ∈ actionable elements,
      imageIdFromLabel record.row.label record.reference = some record.digest := by
    intro elements record hrecord
    obtain ⟨element, -, hwell⟩ := List.mem_filterMap.1 (List.mem_filter.1 hrecord).1
    exact imageIdFromLabel_row (of_decide_eq_true (Option.filter_eq_some_iff.1 hwell).2).digest
  cases hparse : parseAppleImageRecords read stdout with
  | none =>
    have hnone : ∀ elements, ¬ Readable read stdout elements := fun elements h => by
      rw [parseAppleImageRecords_eq_some.2 h] at hparse
      cases hparse
    have hrows : appleImageRowsFromOutput read language stdout success =
      [.message (tr language appleImageIncomplete)] := by
      rw [appleImageRowsFromOutput, hparse]
    rw [hrows]
    exact ⟨fun elements h => absurd h (hnone elements), fun _ => rfl, ⟨fun _ => .inr (.inl hnone), fun _ => rfl⟩,
      fun elements h => absurd h (hnone elements)⟩
  | some elements =>
    have hread := parseAppleImageRecords_eq_some.1 hparse
    have honly : ∀ {elements'}, Readable read stdout elements' → elements' = elements := fun h => by
      rw [parseAppleImageRecords_eq_some.2 h] at hparse
      exact Option.some.inj hparse
    obtain ⟨incomplete, hincomplete, hrows⟩ := rows_readable language success hread
    have hwarned : (success = false ∨ (∀ elements, ¬ Readable read stdout elements) ∨
        ∃ elements, Readable read stdout elements ∧ ∃ element ∈ elements, Excluded elements element) ↔
          incomplete = true := by
      rw [hincomplete]
      refine or_congr_right ⟨?_, fun hexcluded => .inr ⟨elements, hread, hexcluded⟩⟩
      rintro (hnone | ⟨elements', h, hexcluded⟩)
      · exact absurd hread (hnone elements)
      · exact honly h ▸ hexcluded
    rw [hrows]
    refine ⟨fun elements' h => ?_, fun hnone => absurd hread (hnone elements), ?_,
      fun elements' _ => hdigests elements'⟩
    · rw [honly h]
      cases incomplete with
      | true => exact filter_rows _
      | false =>
        split
        next hlie => cases hlie
        next =>
          split
          next hempty => rw [List.isEmpty_iff.1 hempty]; rfl
          next => exact filter_rows _
    · rw [hwarned]
      cases incomplete with
      | true => exact ⟨fun _ => rfl, fun _ => rfl⟩
      | false =>
        refine ⟨fun hhead => ?_, nofun⟩
        cases hactionable : actionable elements with
        | nil =>
          rw [hactionable] at hhead
          exact absurd (congrArg ImageRow.label (Option.some.inj hhead)).symm (tr_ne language)
        | cons record records =>
          rw [hactionable] at hhead
          exact absurd (congrArg ImageRow.reference (Option.some.inj hhead)) (Option.some_ne_none _)

end CocoaWay.Images
