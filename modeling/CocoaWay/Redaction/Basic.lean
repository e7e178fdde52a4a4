import CocoaWay.Lib.Lines
import Mathlib.Data.List.Infix

/-!
# The patterns and the redactor of `diagnostic_redaction.rs`

* `Text` : a text, character by character; every delimiter of the source is one ASCII character;
* `sensitiveKey` : a key whose value is a secret;
* `redactPatterns` : the user part of a URL and the value of a sensitive key are masked;
* `replaceAll` : the known secrets are masked;
* `Value`, `Serde` : JSON values, and what the code uses of its JSON library;
* `Span`, `spans`, `structuredSpans` : the pass over JSON-looking spans, and the text it leaves;
* `begins`, `closes`, `redactLines` : the pass over the lines, with the private-key state;
* `Redactor`, `Redactor.redact`, `Redactor.run` : a chunk, and chunk after chunk.

A span remembers the text it stands for, so that a line of the rewritten text can be traced to the lines it came from.
-/

namespace CocoaWay.Redaction
open Lib

/-! ## Patterns -/

abbrev Text := List Char

/-- `MASK`. -/
def mask : Text := "[REDACTED]".toList

/-- `str::contains`. -/
def contains (text pattern : Text) : Bool := decide (pattern <:+: text)

def isAsciiWhitespace (c : Char) : Bool := [0x20, 0x09, 0x0A, 0x0C, 0x0D].contains c.toNat

def isQuote (c : Char) : Bool := c.toNat == 0x22 || c.toNat == 0x27

def isLineEnd (c : Char) : Bool := c.toNat == 0x0A || c.toNat == 0x0D

def isBlank (c : Char) : Bool := c.toNat == 0x20 || c.toNat == 0x09

/-- `identifier`. -/
def identifier (c : Char) : Bool := c.isAlphanum || ['_', '-', '.'].contains c

/-- `sensitive_key`. -/
def sensitiveKey (key : Text) : Bool :=
  let key := (key.filter Char.isAlphanum).map Char.toLower
  ["password", "passwd", "secret", "token", "credential", "authorization", "apikey", "privatekey", "accesskey",
    "clientkey", "cookie", "username"].any (fun part => contains key part.toList) ||
  ["pwd", "auth", "user", "orgcocoawayowner"].any (fun name => decide (key = name.toList)) ||
  "cocoawaycontainerowner".toList.isPrefixOf key

/-- `str::replace`, with a nonempty pattern: `skip` characters of an occurrence are still to be passed over. -/
def replaceFrom (pattern : Text) : Nat → Text → Text
  | _, [] => []
  | skip + 1, _ :: rest => replaceFrom pattern skip rest
  | 0, c :: rest =>
    if pattern.isPrefixOf (c :: rest) then mask ++ replaceFrom pattern (pattern.length - 1) rest
    else c :: replaceFrom pattern 0 rest

/-- Every known secret is masked, in the order of the list. -/
def replaceAll (secrets : List Text) (line : Text) : Text :=
  secrets.foldl (fun line secret => replaceFrom secret 0 line) line

/-- How much a quoted value takes, after its opening quote. -/
def quotedLength (quote : Char) : Text → Nat
  | [] => 0
  | c :: rest =>
    if c.toNat = 0x5C then
      match rest with
      | [] => 1
      | _ :: rest => 2 + quotedLength quote rest
    else if c = quote then 1
    else 1 + quotedLength quote rest

/-- How much of the text after a sensitive key its value takes. -/
def valueLength (key value : Text) : Nat :=
  let key := key.map Char.toLower
  if mask.isPrefixOf value then mask.length
  else
    match value with
    | [] => 0
    | c :: rest =>
      if isQuote c then 1 + quotedLength c rest
      else if contains key "authorization".toList || contains key "cookie".toList then
        (value.takeWhile (!isLineEnd ·)).length
      else
        (value.takeWhile fun c =>
          !(isAsciiWhitespace c || isQuote c || [0x26, 0x2C, 0x3B, 0x7D, 0x5D].contains c.toNat)).length

/-- The text after a sensitive key up to its value, and the value: after an optional quote and blanks a separator, which
only a flag can do without, and blanks. -/
def keyValue (key after : Text) : Option (Text × Text) :=
  let unquoted :=
    match after with
    | c :: rest => if isQuote c then rest else after
    | [] => []
  let separated :=
    match unquoted.dropWhile isBlank with
    | c :: rest => if c = '=' ∨ c =
      ':' then some rest else if "--".toList.isPrefixOf key then some (c :: rest) else none
    | [] => if "--".toList.isPrefixOf key then some [] else none
  separated.bind fun rest =>
    match rest.dropWhile isBlank with
    | [] => none
    | c :: value => if isLineEnd c then none else some (after.take (after.length - (value.length + 1)), c :: value)

/-- The user part of a URL, up to and with its last at sign, in the host part of the text. -/
def userInfo (host : Text) : Option Text :=
  let back := host.reverse.dropWhile (· ≠ '@')
  if back = [] then none else some (host.drop (back.length - 1))

/-- The loop of `redact_patterns`; every turn takes a character at least. -/
def redactPatternsFrom : Nat → Text → Text
  | 0, text => text
  | _ + 1, [] => []
  | fuel + 1, c :: rest =>
    if "://".toList.isPrefixOf (c :: rest) then
      let after := (c :: rest).drop 3
      let host := after.takeWhile fun c =>
        !(isAsciiWhitespace c || isQuote c || [0x2F, 0x3F, 0x23].contains c.toNat)
      let kept := match userInfo host with
        | some kept => mask ++ kept
        | none => host
      "://".toList ++ kept ++ redactPatternsFrom fuel (after.drop host.length)
    else if !identifier c then c :: redactPatternsFrom fuel rest
    else
      let key := (c :: rest).takeWhile identifier
      let after := (c :: rest).drop key.length
      if !sensitiveKey key then key ++ redactPatternsFrom fuel after
      else
        match keyValue key after with
        | none => key ++ redactPatternsFrom fuel after
        | some (between, value) =>
          let quote := value.take 1 |>.filter isQuote
          key ++ between ++ quote ++ mask ++ quote ++ redactPatternsFrom fuel (value.drop (valueLength key value))

/-- `redact_patterns`. -/
def redactPatterns (text : Text) : Text := redactPatternsFrom text.length text

/-! ## JSON -/

/-- A `serde_json::Value`. -/
inductive Value where
  | null
  | bool (b : Bool)
  | number (literal : Text)
  | string (text : Text)
  | array (values : List Value)
  | object (fields : List (Text × Value))

/-- What the code uses of its JSON library: the next value of a stream with the offset behind it, and a value as text
on one line. -/
structure Serde where
  next : Text → Option (Value × Nat)
  toString : Value → Text
  toString_line : ∀ value, toString value ≠ [] ∧ ∀ c ∈ toString value, (c == '\n') = false

/-- The fields whose value `json_with_secrets` masks whatever it is. -/
def maskedField (key : Text) : Bool :=
  sensitiveKey key ||
  ["env", "envs", "environment", "environmentvariables", "command", "cmd", "args", "arguments", "entrypoint"].any
    fun name => decide ((key.map Char.toLower).filter (fun c => c != '_' && c != '-') = name.toList)

mutual

/-- `json_with_secrets`, with what it does to a string. -/
def jsonWithSecrets (redact : Text → Text) : Value → Value
  | .object fields => .object (jsonFields redact fields)
  | .array values => .array (jsonValues redact values)
  | .string text => .string (redact text)
  | .null => .null
  | .bool b => .bool b
  | .number literal => .number literal

def jsonFields (redact : Text → Text) : List (Text × Value) → List (Text × Value)
  | [] => []
  | (key, value) :: fields =>
    (key, if maskedField key then .string mask else jsonWithSecrets redact value) :: jsonFields redact fields

def jsonValues (redact : Text → Text) : List Value → List Value
  | [] => []
  | value :: values => jsonWithSecrets redact value :: jsonValues redact values

end

/-! ## Structured spans -/

/-- A part of the rewritten text: a character kept as it is, or a text shown in place of another. -/
inductive Span where
  | verbatim (c : Char)
  | rewritten (source shown : Text)

def Span.source : Span → Text
  | .verbatim c => [c]
  | .rewritten source _ => source

def Span.shown : Span → Text
  | .verbatim c => [c]
  | .rewritten _ shown => shown

/-- The span is a line feed of the text. -/
def Span.isBreak : Span → Bool
  | .verbatim c => c == '\n'
  | .rewritten _ _ => false

def structuredOmitted : Text := "[structured diagnostic omitted]".toList

def unparseableOmitted : Text := "[unparseable structured diagnostic omitted]".toList

/-- `json_array_scalar_prefix`. -/
def jsonArrayScalarPrefix (serde : Serde) (tail : Text) : Bool :=
  tail.head?.any (fun c => c.isDigit || ['-', 't', 'f', 'n'].contains c) &&
    match serde.next tail with
    | some (.null, n) | some (.bool _, n) | some (.number _, n) =>
      ((tail.drop n).dropWhile isAsciiWhitespace).head?.any fun c => c == ',' || c == ']'
    | _ => false

/-- What stands behind an opening bracket `c` looks like JSON. -/
def looksLikeJson (serde : Serde) (c : Char) (rest : Text) : Bool :=
  let tail := rest.dropWhile isAsciiWhitespace
  if c.toNat = 0x7B then tail.head?.any fun c => c.toNat == 0x22 || c.toNat == 0x7D
  else if c = '[' then
    tail.head?.any (fun c => c.toNat == 0x22 || c.toNat == 0x7B || c == '[' || c == ']') ||
      jsonArrayScalarPrefix serde tail
  else false

/-- The loop of `structured_spans`: `attempts` spans were tried, `skip` characters belong to the last one. -/
def spans (serde : Serde) (rewrite : Value → Value) : Nat → Nat → Text → List Span
  | _, _, [] => []
  | attempts, skip + 1, _ :: rest => spans serde rewrite attempts skip rest
  | attempts, 0, c :: rest =>
    if looksLikeJson serde c rest then
      if 64 < attempts + 1 then [.rewritten (c :: rest) structuredOmitted]
      else
        match serde.next (c :: rest) with
        | some (value, n) =>
          .rewritten (c :: rest.take (n - 1)) (serde.toString (rewrite value)) ::
            spans serde rewrite (attempts + 1) (n - 1) rest
        | none => [.rewritten (c :: rest) unparseableOmitted]
    else .verbatim c :: spans serde rewrite attempts 0 rest

/-- `structured_spans`. -/
def structuredSpans (serde : Serde) (rewrite : Value → Value) (text : Text) : Text :=
  (spans serde rewrite 0 0 text).flatMap Span.shown

/-! ## Lines -/

/-- `split_inclusive` at line feeds. -/
def splitLines (text : Text) : List Text := splitAfter (· == '\n') text

/-- The line shows a BEGIN marker of a private key. -/
def begins (line : Text) : Bool := contains line "-----BEGIN ".toList && contains line "PRIVATE KEY-----".toList

/-- The line ends the private key. -/
def closes (line : Text) : Bool := contains line "-----END ".toList && contains line "PRIVATE KEY-----".toList

/-- What becomes of a line: the mask in its place, or the line without its secrets and sensitive values. -/
inductive Piece where
  | masked (newline : Bool)
  | passed (text : Text)
  deriving DecidableEq

def Piece.isMasked : Piece → Bool
  | .masked _ => true
  | .passed _ => false

def Piece.text : Piece → Text
  | .masked newline => mask ++ if newline then ['\n'] else []
  | .passed text => text

/-- The loop over the lines, with the private-key state before and after it. -/
def redactLines (secrets : List Text) : Bool → List Text → List Piece × Bool
  | privateKey, [] => ([], privateKey)
  | privateKey, line :: lines =>
    if privateKey || begins line then
      let r := redactLines secrets (!closes line) lines
      (.masked (line.getLast? == some '\n') :: r.1, r.2)
    else
      let r := redactLines secrets privateKey lines
      (.passed (redactPatterns (replaceAll secrets line)) :: r.1, r.2)

/-! ## The redactor -/

structure Redactor where
  secrets : List Text
  privateKey : Bool

/-- `str::len`. -/
def byteLength (text : Text) : Nat := (text.map Char.utf8Size).sum

/-- `Redactor::with_secrets`: longer secrets are replaced first. -/
def Redactor.withSecrets (secrets : List Text) : Redactor :=
  { secrets := (secrets.filter (!·.isEmpty)).mergeSort fun a b => decide (byteLength b ≤ byteLength a)
    privateKey := false }

/-- `redact`, to a depth of strings within JSON within strings. -/
def redactWithin (serde : Serde) : Nat → Redactor → Text → List Piece × Bool
  | 0, r, _ => ([.masked false], r.privateKey)
  | depth + 1, r, text =>
    let rewrite := jsonWithSecrets fun inner =>
      (redactWithin serde depth (Redactor.withSecrets r.secrets) inner).1.flatMap Piece.text
    redactLines r.secrets r.privateKey (splitLines (structuredSpans serde rewrite text))

/-- `redact`: the pieces of the output and the redactor after it. A string in a JSON span is shorter than the text, so
the depth is never used up. -/
def Redactor.redact (serde : Serde) (r : Redactor) (text : Text) : List Piece × Redactor :=
  let result := redactWithin serde (text.length + 1) r text
  (result.1, { r with privateKey := result.2 })

/-- Chunks in order, through one redactor. -/
def Redactor.run (serde : Serde) : Redactor → List Text → List (List Piece)
  | _, [] => []
  | r, text :: texts => (r.redact serde text).1 :: Redactor.run serde (r.redact serde text).2 texts

/-- The output text for each chunk. -/
def Redactor.outputs (serde : Serde) (r : Redactor) (texts : List Text) : List Text :=
  (r.run serde texts).map (List.flatMap Piece.text)

end CocoaWay.Redaction
