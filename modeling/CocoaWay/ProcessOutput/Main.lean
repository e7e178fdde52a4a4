import CocoaWay.Lib.Lines
import CocoaWay.Lib.Split
import CocoaWay.Lib.Utf8
import CocoaWay.Redaction.Main

/-!
# Lines of process output

`BoundedLines` reads lines from what its reader has buffered, however the bytes came in, and keeps a bounded part of
each.

* `Fill`, `readLine`, `BoundedLines.next` : the reader, the loop over what it gives, and an item;
* `symbols`, `linesOf` : the stream without its chunks, and its lines;
* `showLine`, `itemsOf` : what becomes of a line, and of all;
* `readLine_outcome` : the loop over any chunks; `boundedLines_items` : the items are those of the lines of the stream.
-/

namespace CocoaWay.ProcessOutput
open Lib Redaction

variable {ε : Type} {serde : Serde}

/-- `MAX_LINE_BYTES`. -/
def maxLineBytes : Nat := 16 * 1024

def lineFeed : UInt8 := 0x0A

def carriageReturn : UInt8 := 0x0D

/-- What a reader gives, one after another: some bytes, an interrupted read or a failed one. -/
inductive Fill (ε : Type)
  | chunk (b : UInt8) (bs : List UInt8)
  | interrupted
  | failed (e : ε)

/-- What is left of a chunk. -/
def unread (rest : List UInt8) (reader : List (Fill ε)) : List (Fill ε) :=
  match rest with
  | [] => reader
  | b :: bs => .chunk b bs :: reader

/-- How the loop of `next` ends. -/
inductive LineRead (ε : Type)
  | ended
  | failed (e : ε)
  | line (bytes : List UInt8) (truncated : Bool)

/-- The loop of `next`; there is no result where the subtraction underflows. -/
def readLine (bytes : List UInt8) (truncated : Bool) : List (Fill ε) → Option (LineRead ε × List (Fill ε))
  | [] => some (if bytes.isEmpty && !truncated then .ended else .line bytes truncated, [])
  | .interrupted :: reader => readLine bytes truncated reader
  | .failed e :: reader => some (.failed e, reader)
  | .chunk b bs :: reader =>
    let available := b :: bs
    let newline := available.findIdx? (· == lineFeed)
    let length := newline.getD available.length
    if maxLineBytes < bytes.length then none
    else
      let copied := min length (maxLineBytes - bytes.length)
      let bytes := bytes ++ available.take copied
      let truncated := truncated || copied != length
      match newline with
      | some _ => some (.line bytes truncated, unread (available.drop (length + 1)) reader)
      | none => readLine bytes truncated reader

structure BoundedLines (ε : Type) where
  reader : List (Fill ε)
  redactor : Redactor

def outputTruncated : Text := "[output truncated]".toList

/-- A carriage return at the end is no part of the line. -/
def chomp (bytes : List UInt8) : List UInt8 := if bytes.getLast? = some carriageReturn then bytes.dropLast else bytes

def BoundedLines.next (serde : Serde) (lines : BoundedLines ε) : Option (Option (Except ε Text) × BoundedLines ε) :=
  match readLine [] false lines.reader with
  | none => none
  | some (.ended, reader) => some (none, { lines with reader })
  | some (.failed e, reader) => some (some (.error e), { lines with reader })
  | some (.line bytes truncated, reader) =>
    let (pieces, redactor) := lines.redactor.redact serde (fromUtf8Lossy (chomp bytes))
    some (some (.ok (if truncated then outputTruncated else pieces.flatMap Piece.text)), ⟨reader, redactor⟩)

/-- The first `n` items. -/
def BoundedLines.take (serde : Serde) : Nat → BoundedLines ε → Option (List (Except ε Text))
  | 0, _ => some []
  | n + 1, lines =>
    match lines.next serde with
    | none => none
    | some (none, _) => some []
    | some (some item, lines) => (BoundedLines.take serde n lines).map (item :: ·)

/-! ## The stream -/

/-- A byte, or a failed read in its place. -/
inductive Symbol (ε : Type)
  | byte (b : UInt8)
  | failure (e : ε)

def Fill.symbols : Fill ε → List (Symbol ε)
  | .chunk b bs => (b :: bs).map .byte
  | .interrupted => []
  | .failed e => [.failure e]

/-- The stream, without its chunks. -/
def symbols (reader : List (Fill ε)) : List (Symbol ε) := reader.flatMap Fill.symbols

/-- A line feed ends a line, and so does a failed read. -/
def Symbol.isEnd : Symbol ε → Bool
  | .byte b => b == lineFeed
  | .failure _ => true

def Symbol.byte? : Symbol ε → Option UInt8
  | .byte b => some b
  | .failure _ => none

/-- The lines of a stream, each with what ends it. -/
def linesOf (stream : List (Symbol ε)) : List (List (Symbol ε)) := splitAfter Symbol.isEnd stream

/-- What becomes of a line: the marker if it is too long, and otherwise the line without its carriage return, decoded
and redacted. -/
def showLine (serde : Serde) (r : Redactor) (line : List UInt8) : Text × Redactor :=
  let (pieces, r) := r.redact serde (fromUtf8Lossy (chomp (line.take maxLineBytes)))
  (if maxLineBytes < line.length then outputTruncated else pieces.flatMap Piece.text, r)

/-- The bytes of a line, without the line feed. -/
def lineBytes (piece : List (Symbol ε)) : List UInt8 := (piece.filterMap Symbol.byte?).filter (· != lineFeed)

/-- One item for each line. -/
@[grind] def itemsOf (serde : Serde) : Redactor → List (List (Symbol ε)) → List (Except ε Text)
  | _, [] => []
  | r, piece :: pieces =>
    match piece.getLast? with
    | some (.failure e) => .error e :: itemsOf serde r pieces
    | _ =>
      let (text, r) := showLine serde r (lineBytes piece)
      .ok text :: itemsOf serde r pieces

/-- The items that the lines of the whole stream give. -/
def BoundedLines.items (serde : Serde) (lines : BoundedLines ε) : List (Except ε Text) :=
  itemsOf serde lines.redactor (linesOf (symbols lines.reader))

/-! ## The loop -/

/-- What a turn of the loop adds to a line. -/
structure Kept (line bytes : List UInt8) (truncated : Bool) : Prop where
  bytes : bytes = line.take maxLineBytes
  truncated : truncated = decide (maxLineBytes < line.length)

theorem Kept.nil : Kept [] [] false := ⟨rfl, rfl⟩

variable {line : List UInt8} {truncated : Bool}

theorem Kept.length_le {line bytes : List UInt8} (h : Kept line bytes truncated) : bytes.length ≤ maxLineBytes := by
  rw [h.bytes, List.length_take]
  exact Nat.min_le_left _ _

/-- The loop keeps what fits of the bytes that come next, and notes whether some did not. -/
theorem Kept.extend {line bytes available : List UInt8} (h : Kept line bytes truncated) {length : Nat}
    (hlength : length ≤ available.length) :
    Kept (line ++ available.take length) (bytes ++ available.take (min length (maxLineBytes - bytes.length)))
      (truncated || min length (maxLineBytes - bytes.length) != length) := by
  obtain ⟨rfl, rfl⟩ := h
  rw [List.length_take]
  constructor
  · rw [List.take_append, List.take_take]
    congr 2
    omega
  · rw [List.length_append, List.length_take, Nat.min_eq_left hlength]
    by_cases hlong : maxLineBytes < line.length
    · rw [decide_eq_true hlong, Bool.true_or, eq_comm, decide_eq_true_eq]
      omega
    · rw [decide_eq_false hlong, Bool.false_or, Bool.eq_iff_iff, bne_iff_ne, decide_eq_true_eq]
      omega

theorem isEnd_of_ne (h : lineFeed ∉ line) : ∀ s ∈ line.map (Symbol.byte (ε := ε)), s.isEnd = false := by
  intro s hs
  obtain ⟨b, hb, rfl⟩ := List.mem_map.1 hs
  simp only [Symbol.isEnd, beq_eq_false_iff_ne]
  exact fun he => h (he ▸ hb)

theorem symbols_unread (rest : List UInt8) (reader : List (Fill ε)) :
    symbols (unread rest reader) = rest.map .byte ++ symbols reader := by
  cases rest <;> rfl

/-- How the loop ends, by the lines that are left. -/
inductive Outcome : List (List (Symbol ε)) → LineRead ε → List (List (Symbol ε)) → Prop
  | ended : Outcome [] .ended []
  | failed {line : List UInt8} (e : ε) (pieces : List (List (Symbol ε))) :
    Outcome ((line.map .byte ++ [.failure e]) :: pieces) (.failed e) pieces
  | line {line bytes : List UInt8} {truncated : Bool} (hline : lineFeed ∉ line) (hkept : Kept line bytes truncated)
    (pieces : List (List (Symbol ε))) :
    Outcome ((line.map .byte ++ [.byte lineFeed]) :: pieces) (.line bytes truncated) pieces
  | last {line bytes : List UInt8} {truncated : Bool} (hne : line ≠ []) (hline : lineFeed ∉ line)
    (hkept : Kept line bytes truncated) : Outcome [line.map .byte] (.line bytes truncated) []

/-- **The loop, over any chunks.** The line so far goes on with the stream. -/
theorem readLine_outcome (reader : List (Fill ε)) {line bytes : List UInt8} (hline : lineFeed ∉ line)
    (hkept : Kept line bytes truncated) : ∃ result reader', readLine bytes truncated reader = some (result, reader') ∧
      Outcome (linesOf (line.map .byte ++ symbols reader)) result (linesOf (symbols reader')) := by
  induction reader generalizing line bytes truncated with
  | nil =>
    refine ⟨_, _, rfl, ?_⟩
    by_cases hne : line = []
    · subst hne
      obtain ⟨rfl, rfl⟩ := hkept
      exact Outcome.ended
    · have hlines : linesOf (line.map Symbol.byte ++ symbols ([] : List (Fill ε))) = [line.map .byte] :=
        splitAfter_append_of_none (by simpa using hne) (isEnd_of_ne hline) []
      have hbytes : (bytes.isEmpty && !truncated) = false := by
        rw [hkept.bytes]
        cases line with
        | nil => exact absurd rfl hne
        | cons b line => rfl
      rw [hlines, hbytes]
      exact Outcome.last hne hline hkept
  | cons fill reader ih =>
    cases fill with
    | interrupted => exact ih hline hkept
    | failed e =>
      refine ⟨_, _, rfl, ?_⟩
      have hlines : linesOf (line.map Symbol.byte ++ symbols (.failed e :: reader)) =
          (line.map .byte ++ [.failure e]) :: linesOf (symbols reader) :=
        splitAfter_line (isEnd_of_ne hline) rfl (symbols reader)
      rw [hlines]
      exact Outcome.failed e _
    | chunk b bs =>
      have hlength := hkept.length_le
      have hsymbols : symbols (.chunk b bs :: reader) = (b :: bs).map Symbol.byte ++ symbols reader := rfl
      rw [hsymbols]
      unfold readLine
      generalize b :: bs = available
      dsimp only
      rw [if_neg (Nat.not_lt.2 hlength)]
      cases hnewline : available.findIdx? (· == lineFeed) with
      | none =>
        have hnone : lineFeed ∉ available := findIdx?_eq_none.1 hnewline
        have hextend := hkept.extend (Nat.le_refl available.length)
        rw [List.take_length] at hextend
        have hmore := ih (List.not_mem_append hline hnone) hextend
        rw [List.map_append, List.append_assoc] at hmore
        exact hmore
      | some i =>
        obtain ⟨front, back, hsplit, hfront, rfl⟩ := findIdx?_eq_some.1 hnewline
        have hle : front.length ≤ available.length := by
          rw [hsplit, List.length_append]
          exact Nat.le_add_right ..
        have hextend := hkept.extend hle
        have hfirst : available.take front.length = front := by rw [hsplit, List.take_left]
        have hrest : available.drop (front.length + 1) = back := by
          rw [hsplit, ← List.drop_drop, List.drop_left]
          rfl
        rw [hfirst] at hextend
        refine ⟨_, _, rfl, ?_⟩
        rw [symbols_unread]
        dsimp only [Option.getD_some]
        have hclean := List.not_mem_append hline hfront
        have hlines : linesOf (line.map Symbol.byte ++ (available.map .byte ++ symbols reader)) =
            ((line ++ front).map .byte ++ [.byte lineFeed]) :: linesOf (back.map .byte ++ symbols reader) := by
          have hshape : line.map Symbol.byte ++ (available.map .byte ++ symbols reader) =
              (line ++ front).map .byte ++ .byte lineFeed :: (back.map .byte ++ symbols reader) := by
            rw [hsplit]
            simp
          rw [hshape]
          exact splitAfter_line (isEnd_of_ne hclean) (b := .byte lineFeed) rfl _
        rw [hrest, hlines]
        exact Outcome.line hclean hextend _

/-! ## The items -/

theorem filterMap_byte (line : List UInt8) : (line.map (Symbol.byte (ε := ε))).filterMap Symbol.byte? = line := by
  rw [List.filterMap_map]
  exact List.filterMap_some

theorem filter_lineFeed (h : lineFeed ∉ line) : line.filter (· != lineFeed) = line := by
  rw [List.filter_eq_self]
  intro b hb
  rw [bne_iff_ne]
  exact fun he => h (he ▸ hb)

theorem lineBytes_line (h : lineFeed ∉ line) :
    lineBytes (line.map (Symbol.byte (ε := ε)) ++ [.byte lineFeed]) = line := by
  unfold lineBytes
  rw [List.filterMap_append, filterMap_byte, List.filter_append, filter_lineFeed h]
  exact List.append_nil line

theorem lineBytes_last (h : lineFeed ∉ line) : lineBytes (line.map (Symbol.byte (ε := ε))) = line := by
  unfold lineBytes
  rw [filterMap_byte, filter_lineFeed h]

/-- What is shown of a line depends on the whole line only by its length. -/
theorem Kept.showLine {line bytes : List UInt8} (h : Kept line bytes truncated) (r : Redactor) : showLine serde r line =
      (if truncated then outputTruncated else (r.redact serde (fromUtf8Lossy (chomp bytes))).1.flatMap Piece.text,
        (r.redact serde (fromUtf8Lossy (chomp bytes))).2) := by
  obtain ⟨rfl, rfl⟩ := h
  simp only [ProcessOutput.showLine, decide_eq_true_eq]

theorem itemsOf_line (serde : Serde) (r : Redactor) {piece : List (Symbol ε)}
    (h : ∀ e, piece.getLast? ≠ some (.failure e))
    (pieces : List (List (Symbol ε))) : itemsOf serde r (piece :: pieces) =
      .ok (showLine serde r (lineBytes piece)).1 :: itemsOf serde (showLine serde r (lineBytes piece)).2 pieces := by
  rw [itemsOf]
  split
  · next e he => exact absurd he (h e)
  · rfl

theorem next_spec (serde : Serde) (lines : BoundedLines ε) : ∃ item lines', lines.next serde = some (item, lines') ∧
    itemsOf serde lines.redactor (linesOf (symbols lines.reader)) =
      item.toList ++ itemsOf serde lines'.redactor (linesOf (symbols lines'.reader)) ∧
    (item = none → linesOf (symbols lines.reader) = []) := by
  obtain ⟨result, reader', hread, houtcome⟩ := readLine_outcome lines.reader List.not_mem_nil Kept.nil
  rw [List.map_nil, List.nil_append] at houtcome
  generalize hpieces : linesOf (symbols lines.reader) = pieces at houtcome
  generalize hpieces' : linesOf (symbols reader') = pieces' at houtcome
  unfold BoundedLines.next
  rw [hread]
  cases houtcome with
  | ended => exact ⟨none, _, rfl, by dsimp only; rw [hpieces']; rfl, fun _ => rfl⟩
  | @failed line e =>
    refine ⟨_, _, rfl, ?_, nofun⟩
    dsimp only
    rw [hpieces', itemsOf, List.getLast?_concat]
    rfl
  | @line line bytes truncated hline hkept =>
    refine ⟨_, _, rfl, ?_, nofun⟩
    dsimp only
    rw [hpieces', itemsOf_line _ _ (by simp), lineBytes_line hline, hkept.showLine]
    rfl
  | @last line bytes truncated hne hline hkept =>
    refine ⟨_, _, rfl, ?_, nofun⟩
    dsimp only
    rw [hpieces', itemsOf_line _ _ (by simp [List.getLast?_map]), lineBytes_last hline, hkept.showLine]
    rfl

/-- The calls of `next` give the items of the lines. -/
theorem take_eq_items (serde : Serde) (lines : BoundedLines ε) (n : Nat) :
    lines.take serde n = some ((lines.items serde).take n) := by
  induction n generalizing lines with
  | zero => rfl
  | succ n ih =>
    obtain ⟨item, lines', hnext, hitems, hend⟩ := next_spec serde lines
    unfold BoundedLines.items
    rw [BoundedLines.take, hnext]
    cases item with
    | none =>
      rw [hend rfl]
      rfl
    | some item =>
      dsimp only
      rw [ih lines', hitems]
      rfl

theorem length_itemsOf (r : Redactor) (pieces : List (List (Symbol ε))) :
    (itemsOf serde r pieces).length = pieces.length := by
  induction pieces generalizing r with
  | nil => rfl
  | cons piece pieces ih =>
    rw [itemsOf]
    split
    · rw [List.length_cons, ih, List.length_cons]
    · rw [List.length_cons, ih, List.length_cons]

/-- What an item says of its line, whatever the lines before it were. -/
theorem itemsOf_getElem? (serde : Serde) (r : Redactor) {pieces : List (List (Symbol ε))} {k : Nat}
    {piece : List (Symbol ε)}
    (h : pieces[k]? = some piece) : ∃ r' : Redactor, (itemsOf serde r pieces)[k]? =
      some (match piece.getLast? with
        | some (.failure e) => .error e
        | _ => .ok (showLine serde r' (lineBytes piece)).1) := by
  induction pieces generalizing r k with
  | nil => cases h
  | cons first pieces ih =>
    cases k with
    | zero =>
      obtain rfl := Option.some.inj h
      refine ⟨r, ?_⟩
      rw [itemsOf]
      split <;> rfl
    | succ k =>
      rw [List.getElem?_cons_succ] at h
      rw [itemsOf]
      split
      · exact ih r h
      · exact ih _ h

/-- **Lines, for every stream and every way its bytes come in**: one item for each, the marker for a line over the
limit, and otherwise at most the limit of bytes, decoded and redacted. -/
theorem bounded_lines (serde : Serde) (lines : BoundedLines ε) :
    (∀ n, lines.take serde n = some ((lines.items serde).take n)) ∧
    (∀ reader : List (Fill ε), symbols reader = symbols lines.reader →
      ∀ n, ({ lines with reader } : BoundedLines ε).take serde n = lines.take serde n) ∧
    (linesOf (symbols lines.reader)).flatten = symbols lines.reader ∧
    (∀ line ∈ linesOf (symbols lines.reader), ∀ s ∈ line.dropLast, s.isEnd = false) ∧
    (lines.items serde).length = (linesOf (symbols lines.reader)).length ∧
    ∀ (k : Nat) line, (linesOf (symbols lines.reader))[k]? = some line →
      (∃ e, line.getLast? = some (.failure e) ∧ (lines.items serde)[k]? = some (.error e)) ∨
      (maxLineBytes < (lineBytes line).length ∧ (lines.items serde)[k]? = some (.ok outputTruncated)) ∨
      ((lineBytes line).length ≤ maxLineBytes ∧ ∃ r : Redactor, (lines.items serde)[k]? =
        some (.ok ((r.redact serde (fromUtf8Lossy (chomp (lineBytes line)))).1.flatMap Piece.text))) := by
  refine ⟨take_eq_items serde lines, fun reader hreader n => ?_, flatten_splitAfter _, fun line hline =>
    none_of_mem_splitAfter hline, length_itemsOf _ _, fun k line hline => ?_⟩
  · rw [take_eq_items, take_eq_items]
    unfold BoundedLines.items
    rw [hreader]
  · obtain ⟨r, hitem⟩ := itemsOf_getElem? serde lines.redactor hline
    unfold BoundedLines.items
    rw [hitem]
    split
    · next e he => exact Or.inl ⟨e, he, rfl⟩
    · by_cases hlong : maxLineBytes < (lineBytes line).length
      · refine Or.inr (Or.inl ⟨hlong, ?_⟩)
        simp only [showLine, if_pos hlong]
      · refine Or.inr (Or.inr ⟨Nat.not_lt.1 hlong, r, ?_⟩)
        simp only [showLine, if_neg hlong, List.take_of_length_le (Nat.not_lt.1 hlong)]

/-! ## A line of the limit -/

section Widened

open Utf8 (replacement)

theorem fromUtf8Lossy_ill_append (n : Nat) (rest : List UInt8) :
    fromUtf8Lossy (List.replicate n 0xFF ++ rest) = List.replicate n replacement ++ fromUtf8Lossy rest := by
  induction n with
  | zero => rfl
  | succ n ih => exact congrArg (replacement :: ·) ih

theorem fromUtf8Lossy_ill (n : Nat) : fromUtf8Lossy (List.replicate n 0xFF) = List.replicate n replacement := by
  have h := fromUtf8Lossy_ill_append n []
  rwa [List.append_nil, show fromUtf8Lossy [] = [] from rfl, List.append_nil] at h

theorem spans_replacement (rewrite : Value → Value) (n : Nat) :
    spans serde rewrite 0 0 (List.replicate n replacement) = List.replicate n (.verbatim replacement) := by
  induction n with
  | zero => rfl
  | succ n ih => exact congrArg (Span.verbatim replacement :: ·) ih

theorem structuredSpans_replacement (rewrite : Value → Value) (n : Nat) :
    structuredSpans serde rewrite (List.replicate n replacement) = List.replicate n replacement := by
  unfold structuredSpans
  rw [spans_replacement, List.flatMap_replicate]
  simp [Span.shown]

theorem begins_replacement (n : Nat) : begins (List.replicate n replacement) = false := by
  unfold begins contains
  rw [Bool.and_eq_false_iff, decide_eq_false_iff_not]
  left
  intro hin
  have hdash : '-' ∈ List.replicate n replacement := hin.subset List.mem_cons_self
  exact absurd (List.eq_of_mem_replicate hdash) (by decide)

theorem redactPatterns_replacement (n : Nat) :
    redactPatterns (List.replicate n replacement) = List.replicate n replacement := by
  unfold redactPatterns
  rw [List.length_replicate]
  induction n with
  | zero => rfl
  | succ n ih => exact congrArg (replacement :: ·) ih

/-- Replacement characters are shown as they are. -/
theorem redact_replacement (n : Nat) :
    (((Redactor.withSecrets []).redact serde (List.replicate (n + 1) replacement)).1.flatMap Piece.text) =
      List.replicate (n + 1) replacement := by
  have hlines : splitLines (List.replicate (n + 1) replacement) = [List.replicate (n + 1) replacement] := by
    have hsplit := splitAfter_append_of_none (p := (· == '\n')) (l := List.replicate (n + 1) replacement) (by simp)
      (fun c hc => by rw [List.eq_of_mem_replicate hc]; decide) []
    rwa [List.append_nil] at hsplit
  have hbegins := begins_replacement (n + 1)
  have hsecrets : (Redactor.withSecrets []).secrets = [] := by simp [Redactor.withSecrets]
  have hprivate : (Redactor.withSecrets []).privateKey = false := rfl
  unfold Redactor.redact
  rw [List.length_replicate, redactWithin]
  dsimp only
  rw [structuredSpans_replacement, hlines, redactLines, hprivate, hbegins, hsecrets]
  simp only [Bool.or_false, Bool.false_eq_true, if_false, redactLines, List.flatMap_cons, List.flatMap_nil,
    List.append_nil,
    Piece.text, replaceAll, List.foldl_nil, redactPatterns_replacement]

theorem items_ill {n : Nat} (hn : n + 1 ≤ maxLineBytes) :
    (⟨[.chunk 0xFF (List.replicate n 0xFF)], .withSecrets []⟩ : BoundedLines ε).items serde =
      [.ok (List.replicate (n + 1) replacement)] := by
  have hline : lineFeed ∉ List.replicate (n + 1) (0xFF : UInt8) := fun h =>
    absurd (List.eq_of_mem_replicate h) (by decide)
  have hlines : linesOf ((List.replicate (n + 1) (0xFF : UInt8)).map (Symbol.byte (ε := ε))) =
      [(List.replicate (n + 1) (0xFF : UInt8)).map .byte] := by
    have hsplit := splitAfter_append_of_none (by simp) (isEnd_of_ne (ε := ε) hline) []
    rwa [List.append_nil] at hsplit
  have hchomp : chomp (List.replicate (n + 1) 0xFF) = List.replicate (n + 1) 0xFF := by
    unfold chomp
    rw [List.getLast?_replicate, if_neg (by simp [carriageReturn])]
  have hsymbols : symbols [(.chunk 0xFF (List.replicate n 0xFF) : Fill ε)] =
      (List.replicate (n + 1) (0xFF : UInt8)).map .byte := List.append_nil _
  have hlast : ∀ e : ε, ((List.replicate (n + 1)
    (0xFF : UInt8)).map Symbol.byte).getLast? ≠ some (Symbol.failure e) := by
    intro e
    rw [List.map_replicate, List.getLast?_replicate]
    simp
  have hitem := itemsOf_line serde (Redactor.withSecrets []) hlast []
  have hkept : (List.replicate (n + 1) (0xFF : UInt8)).take maxLineBytes = List.replicate (n + 1) 0xFF :=
    List.take_of_length_le (by rwa [List.length_replicate])
  have hshort : ¬ maxLineBytes < (List.replicate (n + 1) (0xFF : UInt8)).length := by
    rw [List.length_replicate]
    exact Nat.not_lt.2 hn
  rw [BoundedLines.items, hsymbols, hlines, hitem, lineBytes_last hline]
  simp only [showLine, if_neg hshort, hkept, hchomp, fromUtf8Lossy_ill, redact_replacement, itemsOf]

/-- A line of the limit that is not text: what is shown of it is longer. -/
theorem line_widened : ∃ item : Text, maxLineBytes < byteLength item ∧
    (⟨[.chunk 0xFF (List.replicate 16383 0xFF)], .withSecrets []⟩ : BoundedLines Unit).take noJson 2 =
      some [.ok item] := by
  refine ⟨List.replicate (16383 + 1) replacement, ?_, ?_⟩
  · unfold byteLength
    rw [List.map_replicate, List.sum_replicate_nat]
    decide
  · rw [take_eq_items, items_ill (by decide)]
    rfl

end Widened

end CocoaWay.ProcessOutput
