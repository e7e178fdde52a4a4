import CocoaWay.Sessions.Plan
import CocoaWay.Sessions.Text
import CocoaWay.ProfileConfig.Identifiers

/-!
# A profile is read back from its text

* `readSessions` : the profiles of a text; `blanksAbsent` : a profile with its empty texts absent;
* `Writable` : a profile with nothing that TOML cannot have as it is written;
* `decodeSession_fields` : the entries of a profile are read as the profile;
* `roundTrips_iff` : the text of a profile is read as the profile exactly when it is writable.
-/

namespace CocoaWay.Sessions

open Lib
open Control (ProfileId)
open ProfileConfig (ContainerSession Entries decodeSession writable Value)

/-! ## Reading -/

def textOf? : Toml.Scalar → Option String
  | .string t => some (String.ofList t)
  | .integer _ | .boolean _ => none

def decodeValue : Toml.Value → Value Toml.Value
  | .scalar (.string t) => .string (String.ofList t)
  | .scalar (.integer n) => .integer n
  | .scalar (.boolean b) => .boolean b
  | .array elements => ((elements.mapM textOf?).map .strings).getD (.other (.array elements))

def toEntries (entries : List Toml.Entry) : Entries Toml.Value :=
  entries.foldl (fun t e => t.set (String.ofList e.1) (decodeValue e.2)) ∅

/-- The document of the profiles; an array without tables is one of values. -/
def toDocument (d : Toml.Document) : ProfileConfig.Document Toml.Value where
  session := match d.root.lookup "session".toList with
    | some (.array elements) => .array (elements.map fun v => .value (decodeValue (.scalar v)))
    | some v => .other (decodeValue v)
    | none =>
      let rows := d.tables.filter (·.1 = "session".toList)
      if rows = [] then .absent else .tables (rows.map fun row => toEntries row.2)
  others := toEntries (d.root.filter (·.1 ≠ "session".toList))

/-- `toml::from_str::<Config>`; an integer has 64 bits with its sign. -/
def readSessions (text : String) : Except ProfileConfig.ConfigError (List ContainerSession) :=
  match Toml.parse Toml.isUnescaped (2 ^ 63) text.toList with
  | some d => ProfileConfig.decode (toDocument d)
  | none => .error .toml

/-- The profile with the empty ones of its optional texts absent. -/
def blanksAbsent (s : ContainerSession) : ContainerSession :=
  { s with
    display := given s.display, presentation := given s.presentation, profile := given s.profile,
    app := given s.app, command := given s.command, socket := given s.socket,
    containerSocket := given s.containerSocket, waypipePath := given s.waypipePath,
    waypipeCompress := given s.waypipeCompress }

/-- The texts of a profile. -/
def texts (s : ContainerSession) : List String :=
  [s.name, s.runtime, s.image] ++
    ([s.display, s.presentation, s.profile, s.command, s.app, s.socket, s.containerSocket, s.waypipePath,
      s.waypipeCompress].flatMap Option.toList) ++ s.runtimeArgs ++ s.mounts ++ s.env

/-- The texts have no control characters but line feeds, returns and tabs, and the number of threads is no more than a
TOML integer can be. -/
def Writable (s : ContainerSession) : Prop :=
  (∀ text ∈ texts s, ∀ c ∈ text.toList, writable c = true) ∧ ∀ n ∈ s.waypipeThreads, n < 2 ^ 63

/-! ## Entries are read as the profile -/

section Decode

variable {s : ContainerSession}

theorem get_foldl (entries : List Toml.Entry) (t : Entries Toml.Value) (h : (entries.map Prod.fst).Nodup)
    (key : String) :
    (entries.foldl (fun t e => t.set (String.ofList e.1) (decodeValue e.2)) t).get key =
      ((entries.lookup key.toList).map decodeValue).or (t.get key) := by
  induction entries generalizing t with
  | nil => rfl
  | cons e entries ih =>
    rw [List.map_cons, List.nodup_cons] at h
    rw [List.foldl_cons, ih _ h.2, Table.get_set, List.lookup_cons]
    by_cases hkey : key.toList = e.1
    · have hnone : entries.lookup key.toList = none := by
        rw [List.lookup_eq_none_iff]
        intro e' he'
        rw [bne_iff_ne]
        intro heq
        exact h.1 (List.mem_map.2 ⟨e', he', by rw [← heq, hkey]⟩)
      rw [hnone, ← hkey, String.ofList_toList, if_pos rfl]
      simp
    · have hne : key ≠ String.ofList e.1 := by
        intro heq
        exact hkey (by rw [heq, String.toList_ofList])
      have hbeq : (key.toList == e.1) = false := by simpa using hkey
      rw [if_neg hne, hbeq]

theorem lookup_entries {l : List Slot} (h : (l.map Prod.fst).Nodup) :
    ∀ slot ∈ l, (l.filterMap Slot.entry?).lookup slot.1.toList = slot.2 := by
  induction l with
  | nil => nofun
  | cons first l ih =>
    rw [List.map_cons, List.nodup_cons] at h
    intro slot hslot
    rw [List.filterMap_cons]
    rcases List.mem_cons.1 hslot with rfl | hmem
    · obtain ⟨key, _ | v⟩ := slot
      · -- no other entry has the key
        show (l.filterMap Slot.entry?).lookup key.toList = none
        rw [List.lookup_eq_none_iff]
        intro e he
        obtain ⟨slot', hslot', hentry⟩ := List.mem_filterMap.1 he
        obtain ⟨w, -, rfl⟩ := Option.map_eq_some_iff.1 hentry
        rw [bne_iff_ne]
        intro heq
        exact h.1 (List.mem_map.2 ⟨slot', hslot', (String.toList_inj.1 heq).symm⟩)
      · show List.lookup key.toList ((key.toList, v) :: _) = some v
        exact List.lookup_cons_self
    · have hne : (slot.1.toList == first.1.toList) = false := by
        rw [beq_eq_false_iff_ne]
        intro heq
        exact h.1 (List.mem_map.2 ⟨slot, hmem, String.toList_inj.1 heq⟩)
      obtain ⟨key, _ | v⟩ := first
      · exact ih h.2 slot hmem
      · show List.lookup slot.1.toList ((key.toList, v) :: _) = slot.2
        rw [List.lookup_cons, hne]
        exact ih h.2 slot hmem

theorem get_toEntries (s : ContainerSession) :
    ∀ slot ∈ slots s, (toEntries (fields s)).get slot.1 = slot.2.map decodeValue := by
  intro slot hslot
  unfold toEntries
  rw [get_foldl _ _ (fields_nodup s), Table.get_empty, Option.or_none]
  exact congrArg _ (lookup_entries (slots_nodup s) slot hslot)

theorem decodeValue_text (value : String) : decodeValue (textValue value) = .string value := by
  show Value.string (String.ofList value.toList) = _
  rw [String.ofList_toList]

theorem decodeValue_list (values : List String) :
    decodeValue (.array (values.map fun value => .string value.toList)) = .strings values := by
  have hall : (values.map fun value => Toml.Scalar.string value.toList).mapM textOf? = some values := by
    induction values with
    | nil => rfl
    | cons value values ih =>
      rw [List.map_cons, List.mapM_cons, ih]
      show some (String.ofList value.toList :: values) = _
      rw [String.ofList_toList]
  show ((List.mapM textOf? _).map Value.strings).getD _ = _
  rw [hall]
  rfl

theorem optional_given {t : Entries Toml.Value} {key : String} {value : Option String}
    (h : t.get (optionalSlot key value).1 = (optionalSlot key value).2.map decodeValue) :
    ProfileConfig.optional t key Value.asStr = some (given value) := by
  unfold ProfileConfig.optional
  rw [show t.get key = _ from h]
  unfold optionalSlot
  cases given value with
  | none => rfl
  | some text =>
    rw [Option.map_some, Option.map_some, decodeValue_text]
    rfl

theorem optional_list {t : Entries Toml.Value} {key : String} {values : List String}
    (h : t.get (listSlot key values).1 = (listSlot key values).2.map decodeValue) :
    ProfileConfig.optional t key Value.asStrings = some (if values = [] then none else some values) := by
  unfold ProfileConfig.optional
  rw [show t.get key = _ from h]
  unfold listSlot
  by_cases hnil : values = []
  · rw [if_pos hnil, if_pos hnil]
    rfl
  · rw [if_neg hnil, if_neg hnil, Option.map_some, decodeValue_list]
    rfl

/-- The entries of a profile are read as the profile. -/
theorem decodeSession_fields (h : ∀ n ∈ s.waypipeThreads, n < 2 ^ 63) :
    decodeSession (toEntries (fields s)) = some (blanksAbsent s) := by
  have hget := get_toEntries s
  generalize toEntries (fields s) = t at hget ⊢
  simp only [slots, List.forall_mem_cons, List.not_mem_nil, false_implies, implies_true, and_true, Option.map_some,
    decodeValue_text] at hget
  obtain ⟨hid, hname, hruntime, himage, hdisplay, hpresentation, hprofile, hcommand, happ, hsocket, hcontainer, hpath,
    hcompress, hthreads, haudio, hargs, hmounts, henv⟩ := hget
  have hread : ProfileConfig.optional t "id" Value.asProfileId =
      some (if s.id.isSaved then some s.id else none) := by
    unfold ProfileConfig.optional
    rw [hid]
    by_cases hsaved : s.id.isSaved = true
    · rw [if_pos hsaved, if_pos hsaved, Option.map_some, decodeValue_text]
      show (Value.asProfileId _).map some = _
      rw [ProfileConfig.asProfileId_toString hsaved]
      rfl
    · rw [if_neg hsaved, if_neg hsaved]
      rfl
  have hcount : ProfileConfig.optional t "waypipe_threads" Value.asUsize = some s.waypipeThreads := by
    unfold ProfileConfig.optional
    rw [hthreads]
    cases hn : s.waypipeThreads with
    | none => rfl
    | some n =>
      have hcount : (decodeValue (.scalar (.integer n))).asUsize = if n < 2 ^ 63 then some n else none := rfl
      rw [Option.map_some, Option.map_some]
      dsimp only
      rw [hcount]
      rw [if_pos (h n hn), Option.map_some]
  have hsound : ProfileConfig.optional t "audio" Value.asBool = some (some s.audio) := by
    unfold ProfileConfig.optional
    rw [haudio]
    rfl
  have hrun : ProfileConfig.optional t "runtime" Value.asStr = some (some s.runtime) := by
    unfold ProfileConfig.optional
    rw [hruntime]
    rfl
  have hlist : ∀ values : List String, (if values = [] then none else some values).getD [] = values := by
    intro values
    by_cases hnil : values = []
    · rw [if_pos hnil, hnil]
      rfl
    · rw [if_neg hnil]
      rfl
  have hsaved : (if s.id.isSaved then some s.id else none).getD .unsaved = s.id := by
    by_cases hsaved : s.id.isSaved = true
    · rw [if_pos hsaved]
      rfl
    · rw [if_neg hsaved]
      have hid : s.id = .unsaved := by
        unfold ProfileId.isSaved at hsaved
        rwa [decide_eq_true_eq, ne_eq, not_not] at hsaved
      exact hid.symm
  unfold decodeSession ProfileConfig.decodeFields ProfileConfig.required
  rw [hread, hname, himage, hrun, optional_given hdisplay, optional_given hpresentation, optional_given hprofile,
    optional_given happ, optional_given hcommand, optional_given hsocket, optional_given hcontainer,
      optional_given hpath,
    optional_given hcompress, hcount, hsound, optional_list hargs, optional_list hmounts, optional_list henv]
  show some _ = _
  congr 1
  unfold blanksAbsent
  rw [hlist, hlist, hlist, hsaved]
  rfl

end Decode

/-! ## What is written -/

section Written

variable {s : ContainerSession}

/-- The scalar can be written, and is read back. -/
def Good (x : Toml.Scalar) : Prop := x.Reads Toml.isUnescaped tomlEscapeChar ∧ x.Fits (2 ^ 63)

def Slot.Good (slot : Slot) : Prop := ∀ v ∈ slot.2, ∀ x ∈ v.scalars, Sessions.Good x

theorem reads_iff (c : Char) : Toml.Reads Toml.isUnescaped tomlEscapeChar c ↔ writable c = true := by
  refine ⟨fun h => ?_, writable_reads⟩
  rw [← Bool.not_eq_false]
  intro hno
  have hrefused := not_writable_refused hno []
  rw [h []] at hrefused
  cases hrefused

theorem good_text (value : String) : Good (.string value.toList) ↔ ∀ c ∈ value.toList, writable c = true := by
  show (∀ c ∈ value.toList, Toml.Reads _ _ c) ∧ True ↔ _
  simp only [reads_iff, and_true]

theorem slotGood_some (key : String) (v : Toml.Value) : Slot.Good (key, some v) ↔ ∀ x ∈ v.scalars, Good x := by
  simp [Slot.Good]

theorem slotGood_text (key value : String) :
    Slot.Good (key, some (textValue value)) ↔ ∀ c ∈ value.toList, writable c = true := by
  rw [slotGood_some, ← good_text]
  simp [textValue, Toml.Value.scalars]

theorem slotGood_optional (key : String) (value : Option String) :
    Slot.Good (optionalSlot key value) ↔ ∀ text ∈ value, ∀ c ∈ text.toList, writable c = true := by
  cases value with
  | none => simp [Slot.Good, optionalSlot, given]
  | some text =>
    by_cases hempty : text = ""
    · subst hempty
      simp [Slot.Good, optionalSlot, given]
    · have hslot : optionalSlot key (some text) = (key, some (textValue text)) := by simp [optionalSlot, given, hempty]
      rw [hslot, slotGood_text]
      simp

theorem slotGood_list (key : String) (values : List String) :
    Slot.Good (listSlot key values) ↔ ∀ text ∈ values, ∀ c ∈ text.toList, writable c = true := by
  unfold listSlot
  by_cases hnil : values = []
  · subst hnil
    simp [Slot.Good]
  · rw [if_neg hnil, slotGood_some]
    simp only [Toml.Value.scalars, List.forall_mem_map, good_text]

theorem slotGood_threads (threads : Option Nat) :
    Slot.Good ("waypipe_threads", threads.map fun n => .scalar (.integer n)) ↔ ∀ n ∈ threads, n < 2 ^ 63 := by
  cases threads with
  | none => simp [Slot.Good]
  | some n =>
    rw [Option.map_some, slotGood_some]
    simp [Toml.Value.scalars, Good, Toml.Scalar.Reads, Toml.Scalar.Fits]

theorem slotGood_audio (audio : Bool) : Slot.Good ("audio", some (.scalar (.boolean audio))) := by
  rw [slotGood_some]
  simp [Toml.Value.scalars, Good, Toml.Scalar.Reads, Toml.Scalar.Fits]

/-- The fields of a profile can all be written exactly when the profile is writable. -/
theorem good_slots_iff : (∀ slot ∈ slots s, slot.Good) ↔ Writable s := by
  have hid : Slot.Good ("id", if s.id.isSaved then some (textValue s.id.toString) else none) := by
    by_cases h : s.id.isSaved = true
    · rw [if_pos h, slotGood_text]
      have hdigit : ∀ n : Fin 16, writable (Control.hexDigit n) = true := by decide
      intro c hc
      obtain ⟨n, rfl⟩ := id_digits hc
      exact hdigit n
    · rw [if_neg h]
      simp [Slot.Good]
  unfold Writable texts
  simp only [slots, List.forall_mem_cons, List.not_mem_nil, false_implies, implies_true, and_true, hid, true_and,
    slotGood_text, slotGood_optional, slotGood_list, slotGood_threads, slotGood_audio, List.forall_mem_append,
    List.flatMap_cons, List.flatMap_nil, Option.mem_toList]
  tauto

end Written

/-! ## Round trip -/

section RoundTrip

variable {s : ContainerSession}

theorem scalars_fields {e : Toml.Entry} (he : e ∈ fields s) {x : Toml.Scalar} (hx : x ∈ e.2.scalars) :
    ∃ slot ∈ slots s, ∃ v ∈ slot.2, x ∈ v.scalars := by
  obtain ⟨slot, hslot, -, hv⟩ := mem_fields he
  exact ⟨slot, hslot, e.2, hv, hx⟩

theorem reads_or_refused (x : Toml.Scalar) :
    x.Reads Toml.isUnescaped tomlEscapeChar ∨ x.Refused Toml.isUnescaped tomlEscapeChar := by
  cases x with
  | integer n => exact .inl trivial
  | boolean b => exact .inl trivial
  | string t =>
    by_cases h : ∀ c ∈ t, writable c = true
    · exact .inl fun c hc => writable_reads (h c hc)
    · push Not at h
      obtain ⟨c, hc, hno⟩ := h
      refine .inr ⟨?_, c, hc, not_writable_refused (by simpa using hno)⟩
      intro c' _
      cases hw : writable c' with
      | true => exact .inl (writable_reads hw)
      | false => exact .inr (not_writable_refused hw)

theorem parse_of_not_writable (h : ¬ Writable s) :
    Toml.parse Toml.isUnescaped (2 ^ 63) (sessionToToml s).toList = none := by
  have hname : Toml.isBare "session".toList = true := by decide
  have hbad : ∃ e ∈ fields s, ∃ x ∈ e.2.scalars, ¬ Good x := by
    rw [← good_slots_iff] at h
    unfold Slot.Good at h
    push Not at h
    obtain ⟨slot, hslot, v, hv, x, hx, hnot⟩ := h
    exact ⟨(slot.1.toList, v), List.mem_filterMap.2 ⟨slot, hslot, by simp [Slot.entry?, Option.mem_def.1 hv]⟩, x,
      hx, hnot⟩
  rw [toList_sessionToToml]
  exact Toml.parse_shownTable_none hname (fields_bare s) (fun e _ x _ => reads_or_refused x) hbad

theorem readSessions_of_parse {text : String} (h : Toml.parse Toml.isUnescaped (2 ^ 63) text.toList = none) :
    readSessions text = .error .toml := by
  unfold readSessions
  rw [h]

/-- The text of a profile is a document, and read as the profile, exactly when the profile is writable. -/
theorem roundTrips_iff (s : ContainerSession) : readSessions (sessionToToml s) = .ok [blanksAbsent s] ↔ Writable s := by
  have hname : Toml.isBare "session".toList = true := by decide
  constructor
  · intro h
    by_contra hno
    rw [readSessions_of_parse (parse_of_not_writable hno)] at h
    cases h
  · intro h
    have hgood := good_slots_iff.2 h
    have hparse := Toml.parse_shownTable hname (fields_bare s) (fields_nodup s) fun e he x hx =>
      let ⟨slot, hslot, v, hv, hxv⟩ := scalars_fields he hx
      hgood slot hslot v hv x hxv
    unfold readSessions
    rw [toList_sessionToToml, hparse]
    show ProfileConfig.decode ⟨.tables [toEntries (fields s)], ∅⟩ = _
    exact ProfileConfig.decode_tables (by rw [List.mapM_cons, decodeSession_fields h.2]; rfl)

/-- A profile whose command has an escape character. -/
def escapeProfile : ContainerSession where
  name := "editor"
  image := "editor"
  command := some ("foot -T " ++ String.singleton (Char.ofNat 27))

theorem not_writable_escape : ¬ Writable escapeProfile := by
  rintro ⟨hwritable, -⟩
  have htext : "foot -T " ++ String.singleton (Char.ofNat 27) ∈ texts escapeProfile := by simp [texts, escapeProfile]
  have hchar : Char.ofNat 27 ∈ ("foot -T " ++ String.singleton (Char.ofNat 27)).toList := by simp
  exact absurd (hwritable _ htext _ hchar) (by decide)

theorem escape_unreadable : validateSession escapeProfile = .ok () ∧
    Toml.parse Toml.isUnescaped (2 ^ 63) (sessionToToml escapeProfile).toList = none ∧
    readSessions (sessionToToml escapeProfile) ≠ .ok [blanksAbsent escapeProfile] := by
  have hparse : Toml.parse Toml.isUnescaped (2 ^ 63) (sessionToToml escapeProfile).toList = none :=
    parse_of_not_writable not_writable_escape
  refine ⟨by decide, hparse, ?_⟩
  rw [readSessions_of_parse hparse]
  exact nofun

end RoundTrip

end CocoaWay.Sessions
