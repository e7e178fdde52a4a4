import CocoaWay.Lib.TomlTables
import CocoaWay.ProfileConfig.Transactions

/-!
# The text of a profile

* `tomlEscape`, `sessionToToml` : a profile as a document of one table;
* `slots`, `fields` : its entries; `toList_sessionToToml` : the text is the shown table of the entries;
* `writable_reads`, `not_writable_refused` : what the escape is read as;
* `fields_nodup`, `slots_of_entries` : the entries have different keys, and tell the fields.
-/

namespace CocoaWay.Sessions

open Lib
open Lib.Toml (Reads Refuses shownTable shownEntry shownValue)
open Control (ProfileId)
open ProfileConfig (ContainerSession Entries decodeSession writable)

/-! ## Writing -/

/-- The characters a character is written as. -/
def tomlEscapeChar (c : Char) : List Char :=
  if c = '\\' then ['\\', '\\']
  else if c = '"' then ['\\', '"']
  else if c = '\n' then ['\\', 'n']
  else if c = '\r' then ['\\', 'r']
  else if c = '\t' then ['\\', 't']
  else [c]

def tomlEscape (value : String) : String := String.ofList (value.toList.flatMap tomlEscapeChar)

def tomlStringList (values : List String) : String :=
  ", ".intercalate (values.map fun value => "\"" ++ tomlEscape value ++ "\"")

def textLine (key value : String) : String := key ++ " = \"" ++ tomlEscape value ++ "\"\n"

/-- A text that is given and not empty. -/
def given (value : Option String) : Option String := value.filter (· ≠ "")

def optionalLine (key : String) (value : Option String) : String :=
  match given value with
  | some value => textLine key value
  | none => ""

def listLine (key : String) (values : List String) : String :=
  if values = [] then "" else key ++ " = [" ++ tomlStringList values ++ "]\n"

def threadsLine : Option Nat → String
  | some n => "waypipe_threads = " ++ toString n ++ "\n"
  | none => ""

def sessionToToml (s : ContainerSession) : String :=
  "[[session]]\n" ++ (if s.id.isSaved then "id = \"" ++ s.id.toString ++ "\"\n" else "") ++ textLine "name" s.name ++
    textLine "runtime" s.runtime ++ textLine "image" s.image ++ optionalLine "display" s.display ++
    optionalLine "presentation" s.presentation ++ optionalLine "profile" s.profile ++
      optionalLine "command" s.command ++
    optionalLine "app" s.app ++ optionalLine "socket" s.socket ++ optionalLine "container_socket" s.containerSocket ++
    optionalLine "waypipe_path" s.waypipePath ++ optionalLine "waypipe_compress" s.waypipeCompress ++
    threadsLine s.waypipeThreads ++ ("audio = " ++ (if s.audio then "true" else "false") ++ "\n") ++
    listLine "runtime_args" s.runtimeArgs ++ listLine "mounts" s.mounts ++ listLine "env" s.env

/-! ## Entries -/

/-- A field, with the value it is written with. -/
abbrev Slot := String × Option Toml.Value

def textValue (value : String) : Toml.Value := .scalar (.string value.toList)

def optionalSlot (key : String) (value : Option String) : Slot := (key, (given value).map textValue)

def listSlot (key : String) (values : List String) : Slot :=
  (key, if values = [] then none else some (.array (values.map fun value => .string value.toList)))

/-- The fields of a profile in the order they are written in. -/
def slots (s : ContainerSession) : List Slot :=
  [("id", if s.id.isSaved then some (textValue s.id.toString) else none), ("name", some (textValue s.name)),
    ("runtime", some (textValue s.runtime)), ("image", some (textValue s.image)), optionalSlot "display" s.display,
    optionalSlot "presentation" s.presentation, optionalSlot "profile" s.profile, optionalSlot "command" s.command,
    optionalSlot "app" s.app, optionalSlot "socket" s.socket, optionalSlot "container_socket" s.containerSocket,
    optionalSlot "waypipe_path" s.waypipePath, optionalSlot "waypipe_compress" s.waypipeCompress,
    ("waypipe_threads", s.waypipeThreads.map fun n => .scalar (.integer n)),
    ("audio", some (.scalar (.boolean s.audio))), listSlot "runtime_args" s.runtimeArgs, listSlot "mounts" s.mounts,
    listSlot "env" s.env]

def Slot.entry? (slot : Slot) : Option Toml.Entry := slot.2.map fun v => (slot.1.toList, v)

def fields (s : ContainerSession) : List Toml.Entry := (slots s).filterMap Slot.entry?

/-- The line of a field. -/
def slotText (slot : Slot) : List Char := slot.entry?.elim [] (shownEntry tomlEscapeChar)

section Shown

variable {s : ContainerSession}

theorem quoted_tomlEscape (value : String) :
    Toml.quoted tomlEscapeChar value.toList = '"' :: ((tomlEscape value).toList ++ ['"']) := by
  simp [Toml.quoted, tomlEscape]

theorem slotText_some (key : String) (v : Toml.Value) :
    slotText (key, some v) = key.toList ++ ' ' :: '=' :: ' ' :: (shownValue tomlEscapeChar v ++ ['\n']) := rfl

theorem slotText_text (key value : String) : slotText (key, some (textValue value)) = (textLine key value).toList := by
  rw [slotText_some]
  show key.toList ++ ' ' :: '=' :: ' ' :: (Toml.quoted tomlEscapeChar value.toList ++ ['\n']) = _
  rw [quoted_tomlEscape]
  simp [textLine, String.toList_append]

theorem slotText_optional (key : String) (value : Option String) :
    slotText (optionalSlot key value) = (optionalLine key value).toList := by
  unfold optionalSlot optionalLine
  cases given value with
  | none => rfl
  | some value => exact slotText_text key value

theorem shownElements_strings (values : List String) :
    Toml.shownElements tomlEscapeChar (values.map fun value => .string value.toList) =
      (tomlStringList values).toList := by
  unfold Toml.shownElements tomlStringList
  rw [String.toList_intercalate, List.map_map, List.map_map]
  refine congrArg (List.intercalate [',', ' ']) (List.map_congr_left fun value _ => ?_)
  show Toml.quoted tomlEscapeChar value.toList = ("\"" ++ tomlEscape value ++ "\"").toList
  rw [quoted_tomlEscape]
  simp [String.toList_append]

theorem slotText_list (key : String) (values : List String) :
    slotText (listSlot key values) = (listLine key values).toList := by
  unfold listSlot listLine
  by_cases h : values = []
  · rw [if_pos h, if_pos h]
    rfl
  · rw [if_neg h, if_neg h]
    show key.toList ++ ' ' :: '=' :: ' ' :: (('[' :: Toml.shownElements tomlEscapeChar _ ++ [']']) ++ ['\n']) = _
    rw [shownElements_strings]
    simp [String.toList_append]

theorem slotText_threads (threads : Option Nat) :
    slotText ("waypipe_threads", threads.map fun n => .scalar (.integer n)) = (threadsLine threads).toList := by
  cases threads with
  | none => rfl
  | some n =>
    have hdigits : shownValue tomlEscapeChar (.scalar (.integer n)) = (toString n).toList := by
      rw [Nat.toString_eq_repr, Nat.toList_repr]
      rfl
    have hkey : "waypipe_threads = ".toList = "waypipe_threads".toList ++ [' ', '=', ' '] := by decide
    have hend : "\n".toList = ['\n'] := by decide
    unfold threadsLine
    rw [Option.map_some, slotText_some, hdigits, String.toList_append, String.toList_append, hkey, hend,
      List.append_assoc, List.append_assoc]
    rfl

theorem slotText_audio (audio : Bool) : slotText ("audio", some (.scalar (.boolean audio))) =
    ("audio = " ++ (if audio then "true" else "false") ++ "\n").toList := by
  cases audio <;> rfl

theorem id_digits {id : ProfileId} {c : Char} (h : c ∈ id.toString.toList) : ∃ n : Fin 16, c = Control.hexDigit n := by
  rw [ProfileId.toString, String.toList_ofList] at h
  obtain ⟨b, -, hb⟩ := List.mem_flatMap.1 h
  have hlt := b.isLt
  rcases List.mem_pair.1 hb with rfl | rfl
  · exact ⟨⟨b / 16, by omega⟩, rfl⟩
  · exact ⟨⟨b % 16, by omega⟩, rfl⟩

theorem tomlEscape_id (id : ProfileId) : tomlEscape id.toString = id.toString := by
  have hdigit : ∀ n : Fin 16, tomlEscapeChar (Control.hexDigit n) = [Control.hexDigit n] := by decide
  have hall : ∀ c ∈ id.toString.toList, tomlEscapeChar c = [c] := by
    intro c hc
    obtain ⟨n, rfl⟩ := id_digits hc
    exact hdigit n
  unfold tomlEscape
  rw [List.flatMap_congr hall, List.flatMap_singleton', String.ofList_toList]

theorem slotText_id (id : ProfileId) : slotText ("id", if id.isSaved then some (textValue id.toString) else none) =
    (if id.isSaved then "id = \"" ++ id.toString ++ "\"\n" else "").toList := by
  by_cases h : id.isSaved = true
  · rw [if_pos h, if_pos h, slotText_text]
    unfold textLine
    rw [tomlEscape_id]
    rfl
  · rw [if_neg h, if_neg h]
    rfl

theorem flatMap_fields (l : List Slot) :
    (l.filterMap Slot.entry?).flatMap (shownEntry tomlEscapeChar) = l.flatMap slotText := by
  induction l with
  | nil => rfl
  | cons slot l ih =>
    rw [List.filterMap_cons, List.flatMap_cons, ← ih]
    unfold slotText
    cases slot.entry? with
    | none => rfl
    | some e => rw [List.flatMap_cons]; rfl

/-- The text of a profile is the table of its entries. -/
theorem toList_sessionToToml (s : ContainerSession) :
    (sessionToToml s).toList = shownTable tomlEscapeChar "session".toList (fields s) := by
  have hfields : (fields s).flatMap (shownEntry tomlEscapeChar) = (slots s).flatMap slotText := flatMap_fields _
  unfold shownTable
  rw [hfields]
  unfold slots sessionToToml
  simp only [String.toList_append, List.flatMap_cons, List.flatMap_nil, slotText_id, slotText_text, slotText_optional,
    slotText_list, slotText_threads, slotText_audio, List.append_assoc, List.append_nil]
  rfl

end Shown

/-! ## Escapes -/

section Escapes

variable {allowed : Char → Bool} {c : Char}

/-- The characters that are escaped. -/
def escapedChars : List Char := ['\\', '"', '\n', '\r', '\t']

theorem tomlEscapeChar_of_plain (h : c ∉ escapedChars) : tomlEscapeChar c = [c] := by
  simp only [escapedChars, List.mem_cons, List.not_mem_nil, or_false, not_or] at h
  obtain ⟨h1, h2, h3, h4, h5⟩ := h
  unfold tomlEscapeChar
  rw [if_neg h1, if_neg h2, if_neg h3, if_neg h4, if_neg h5]

theorem lexFrom_plainChar (h : c ∉ escapedChars) (text : List Char) :
    Toml.lexFrom allowed (.string text) (tomlEscapeChar c) =
    if allowed c then some (.string (c :: text), []) else none := by
  have hquote : c ≠ '"' := by
    rintro rfl
    exact h (by decide)
  have hslash : c ≠ '\\' := by
    rintro rfl
    exact h (by decide)
  rw [tomlEscapeChar_of_plain h, Toml.lexFrom_cons]
  show (if c = '"' then _ else if c = '\\' then _ else
    if allowed c = true then some (Toml.Mode.string (c :: text), []) else none).bind _ = _
  rw [if_neg hquote, if_neg hslash]
  cases allowed c <;> rfl

/-- An escaped character is read as itself, and so is any other that is allowed. -/
theorem reads_tomlEscapeChar (h : c ∈ escapedChars ∨ allowed c = true) : Reads allowed tomlEscapeChar c := by
  intro text
  by_cases hc : c ∈ escapedChars
  · simp only [escapedChars, List.mem_cons, List.not_mem_nil, or_false] at hc
    rcases hc with rfl | rfl | rfl | rfl | rfl <;> rfl
  · rw [lexFrom_plainChar hc, if_pos (h.resolve_left hc)]

theorem refuses_tomlEscapeChar (h : c ∉ escapedChars) (hno : allowed c = false) : Refuses allowed tomlEscapeChar c := by
  intro text
  rw [lexFrom_plainChar h, hno]
  rfl

theorem writable_iff : writable c = true ↔ c ∈ escapedChars ∨ Toml.isUnescaped c = true := by
  have hslash : c = '\\' → 0x20 ≤ c.toNat ∧ c.toNat ≠ 0x7F := by
    rintro rfl
    decide
  have hquote : c = '"' → 0x20 ≤ c.toNat ∧ c.toNat ≠ 0x7F := by
    rintro rfl
    decide
  simp only [writable, Toml.isUnescaped, escapedChars, Bool.or_eq_true, Bool.and_eq_true, decide_eq_true_eq,
    List.mem_cons, List.not_mem_nil, or_false]
  tauto

theorem writable_reads (h : writable c = true) : Reads Toml.isUnescaped tomlEscapeChar c :=
  reads_tomlEscapeChar (writable_iff.1 h)

theorem not_writable_refused (h : writable c = false) : Refuses Toml.isUnescaped tomlEscapeChar c := by
  have hno := mt writable_iff.2 (by rw [h]; exact Bool.false_ne_true)
  rw [not_or, Bool.not_eq_true] at hno
  exact refuses_tomlEscapeChar hno.1 hno.2

end Escapes

/-! ## Keys -/

section Keys

variable {s : ContainerSession}

theorem slots_keys (s : ContainerSession) : (slots s).map Prod.fst =
    ["id", "name", "runtime", "image", "display", "presentation", "profile", "command", "app", "socket",
      "container_socket",
      "waypipe_path", "waypipe_compress", "waypipe_threads", "audio", "runtime_args", "mounts", "env"] := rfl

theorem slots_nodup (s : ContainerSession) : ((slots s).map Prod.fst).Nodup := by
  rw [slots_keys]
  decide +kernel

theorem mem_fields {e : Toml.Entry} (h : e ∈ fields s) : ∃ slot ∈ slots s, slot.1.toList = e.1 ∧ slot.2 = some e.2 := by
  obtain ⟨slot, hslot, he⟩ := List.mem_filterMap.1 h
  obtain ⟨v, hv, rfl⟩ := Option.map_eq_some_iff.1 he
  exact ⟨slot, hslot, rfl, hv⟩

theorem fields_bare (s : ContainerSession) : ∀ e ∈ fields s, Toml.isBare e.1 = true := by
  intro e he
  obtain ⟨slot, hslot, hkey, -⟩ := mem_fields he
  have hmem : slot.1 ∈ (slots s).map Prod.fst := List.mem_map_of_mem hslot
  have hall : ∀ key ∈ (slots s).map Prod.fst, Toml.isBare key.toList = true := by
    rw [slots_keys]
    decide +kernel
  rw [← hkey]
  exact hall _ hmem

theorem entries_nodup {l : List Slot} (h : (l.map Prod.fst).Nodup) :
    ((l.filterMap Slot.entry?).map Prod.fst).Nodup := by
  induction l with
  | nil => exact List.nodup_nil
  | cons slot l ih =>
    rw [List.map_cons, List.nodup_cons] at h
    have ih := ih h.2
    rw [List.filterMap_cons]
    obtain ⟨key, value⟩ := slot
    cases value with
    | none => exact ih
    | some v =>
      show ((key.toList, v) :: l.filterMap Slot.entry? |>.map Prod.fst).Nodup
      rw [List.map_cons, List.nodup_cons]
      refine ⟨?_, ih⟩
      intro hmem
      obtain ⟨e, he, hkey⟩ := List.mem_map.1 hmem
      obtain ⟨slot, hslot, hentry⟩ := List.mem_filterMap.1 he
      obtain ⟨w, -, rfl⟩ := Option.map_eq_some_iff.1 hentry
      refine h.1 (List.mem_map.2 ⟨slot, hslot, ?_⟩)
      exact String.toList_inj.1 hkey

theorem fields_nodup (s : ContainerSession) : ((fields s).map Prod.fst).Nodup := entries_nodup (slots_nodup s)

/-- Fields under the same keys are told apart by their entries. -/
theorem slots_of_entries {l l' : List Slot} (hkeys : l.map Prod.fst = l'.map Prod.fst) (h : (l.map Prod.fst).Nodup)
    (he : l.filterMap Slot.entry? = l'.filterMap Slot.entry?) : l = l' := by
  have hvalue : ∀ {m : List Slot}, (m.map Prod.fst).Nodup → ∀ slot ∈ m, ∀ v,
      slot.2 = some v ↔ (slot.1.toList, v) ∈ m.filterMap Slot.entry? := by
    intro m hm slot hslot v
    constructor
    · intro hv
      exact List.mem_filterMap.2 ⟨slot, hslot, by simp [Slot.entry?, hv]⟩
    · intro hmem
      obtain ⟨slot', hslot', hentry⟩ := List.mem_filterMap.1 hmem
      obtain ⟨w, hw, heq⟩ := Option.map_eq_some_iff.1 hentry
      obtain ⟨hkey, rfl⟩ := Prod.mk.inj heq
      rw [List.inj_on_of_nodup_map hm hslot hslot' (String.toList_inj.1 hkey).symm]
      exact hw
  have hlen : l.length = l'.length := by simpa using congrArg List.length hkeys
  apply List.ext_getElem hlen
  intro k hk hk'
  have hkey : l[k].1 = l'[k].1 := by
    have := congrArg (fun m => m[k]?) hkeys
    simpa [hk, hk'] using this
  refine Prod.ext hkey ?_
  apply Option.ext
  intro v
  rw [hvalue h _ (List.getElem_mem hk), hkey, he, ← hvalue (hkeys ▸ h) _ (List.getElem_mem hk')]

end Keys

end CocoaWay.Sessions
