import CocoaWay.ProfileConfig.Replacing
import CocoaWay.Sessions.RoundTrip

/-!
# A profile is read back from its table

* `entryIs_sessionToToml` : the entries of the table of a profile are the values of its lines;
* `readAs_blanksAbsent` : a table that a profile is written over is read as the profile, with its empty texts absent;
* `sessionToToml_ok_iff` : the lines of a profile can all be written exactly when the profile is writable.
-/

namespace CocoaWay.Sessions

open Lib
open Control (ProfileId)
open ProfileConfig (ContainerSession Entries Value Line sessionLines editedKeys copyKeys writable rowId ReadAs)

variable {V : Type} {s : ContainerSession}

/-! ## Lines -/

theorem lookup_one (key k : String) (v : Option (Value V)) :
    List.lookup key [(k, v)] = if key = k then some v else none := by
  rw [List.lookup_cons]
  by_cases h : key = k
  · simp [h]
  · rw [beq_eq_false_iff_ne.2 h, if_neg h]
    rfl

theorem lookup_textLine (k key : String) (text : Option String) :
    (ProfileConfig.textLine k text : List (Line V)).lookup key = if key = k then (given text).map ProfileConfig.tomlString else none := by
  unfold ProfileConfig.textLine given
  cases text with
  | none => simp
  | some text =>
    by_cases hempty : text = ""
    · simp [hempty]
    · rw [Option.filter_some_pos (by simpa using hempty), Option.map_some]
      dsimp only
      rw [if_neg hempty, lookup_one]

theorem lookup_listLine (k key : String) (texts : List String) :
    (ProfileConfig.listLine k texts : List (Line V)).lookup key =
      if key = k ∧ texts ≠ [] then some (ProfileConfig.tomlStringList texts) else none := by
  unfold ProfileConfig.listLine
  by_cases hnil : texts = []
  · simp [hnil]
  · rw [if_neg hnil, lookup_one]
    simp [hnil]

/-- The entry of the key is the value of a line, or there is none of either. -/
def EntryIs (t : Entries V) (key : String) (line : Option (Option (Value V))) : Prop :=
  t.get key = line.join ∧ line ≠ some none

theorem entryIs_sessionToToml {table : Entries V} (h : ProfileConfig.sessionToToml s = .ok table) {key : String}
    (hkey : key ≠ "id") : EntryIs table key ((sessionLines s).lookup key) := by
  obtain ⟨hget, hwritten⟩ := ProfileConfig.get_sessionToToml h key
  refine ⟨?_, hwritten⟩
  rw [hget, if_neg fun h => hkey h.1]
  cases (sessionLines s : List (Line V)).lookup key <;> rfl

/-! ## Reading the table -/

section Read

variable {t : Entries V} {key : String}

theorem get_textEntry {text : String} (h : EntryIs t key (some (ProfileConfig.tomlString text))) :
    t.get key = some (.string text) := by
  obtain ⟨hget, hwritten⟩ := h
  unfold ProfileConfig.tomlString at hget hwritten
  split at hget
  · exact hget
  next hno => exact absurd (congrArg some (if_neg hno)) hwritten

theorem optional_textEntry {text : Option String}
    (h : EntryIs t key ((given text).map ProfileConfig.tomlString)) :
    ProfileConfig.optional t key Value.asStr = some (given text) := by
  unfold ProfileConfig.optional
  cases hgiven : given text with
  | none =>
    rw [hgiven] at h
    rw [h.1]
    rfl
  | some text =>
    rw [hgiven] at h
    rw [get_textEntry h]
    rfl

theorem optional_listEntry {texts : List String}
    (h : EntryIs t key (if texts ≠ [] then some (ProfileConfig.tomlStringList texts) else none)) :
    (ProfileConfig.optional t key Value.asStrings).map (fun texts => texts.getD []) = some texts := by
  obtain ⟨hget, hwritten⟩ := h
  unfold ProfileConfig.optional
  by_cases hnil : texts = []
  · rw [hget, if_neg (not_not.2 hnil), hnil]
    rfl
  · rw [if_pos hnil] at hget hwritten
    unfold ProfileConfig.tomlStringList at hget hwritten
    split at hget
    · rw [hget]
      rfl
    next hno => exact absurd (congrArg some (if_neg hno)) hwritten

theorem optional_threadsEntry {threads : Option Nat}
    (h : EntryIs t key (threads.map fun n : Nat => if n < 2 ^ 63 then some (.integer n) else none)) :
    ProfileConfig.optional t key Value.asUsize = some threads := by
  obtain ⟨hget, hwritten⟩ := h
  unfold ProfileConfig.optional
  cases threads with
  | none =>
    rw [hget]
    rfl
  | some n =>
    rw [Option.map_some] at hget hwritten
    by_cases hn : n < 2 ^ 63
    · rw [hget, if_pos hn]
      show ((if n < 2 ^ 63 then some n else none : Option Nat).map some) = _
      rw [if_pos hn]
      rfl
    · exact absurd (congrArg some (if_neg hn)) hwritten

end Read

theorem lookup_threads (key : String) (threads : Option Nat) :
    (threads.toList.map fun n : Nat =>
      (("waypipe_threads", if n < 2 ^ 63 then some (.integer n) else none) : Line V)).lookup key =
      if key = "waypipe_threads" then threads.map fun n : Nat => if n < 2 ^ 63 then some (.integer n) else none
      else none := by
  cases threads with
  | none => simp
  | some n =>
    rw [Option.toList_some, List.map_singleton, lookup_one]
    rfl

/-- A table that the profile is written over is read as the profile. -/
theorem readAs_blanksAbsent (s : ContainerSession) : ReadAs V s (blanksAbsent s) := by
  intro table t htable hrow
  have hid : ProfileConfig.optional (copyKeys editedKeys table t) "id" Value.asProfileId = some (some s.id) := by
    obtain ⟨hget, hsaved⟩ := ProfileConfig.rowId_some hrow
    unfold ProfileConfig.optional
    rw [ProfileConfig.get_copyKeys, if_neg (by decide), hget]
    show (Value.asProfileId _).map some = _
    rw [ProfileConfig.asProfileId_toString hsaved]
    rfl
  have hentry : ∀ key ∈ editedKeys, EntryIs (copyKeys editedKeys table t) key ((sessionLines s).lookup key) := by
    intro key hkey
    unfold EntryIs
    rw [ProfileConfig.get_copyKeys, if_pos hkey]
    refine entryIs_sessionToToml htable ?_
    rintro rfl
    exact absurd hkey (by decide)
  generalize copyKeys editedKeys table t = u at hid hentry ⊢
  simp only [editedKeys, List.forall_mem_cons, List.not_mem_nil, false_implies, implies_true, and_true, sessionLines,
    List.lookup_append, lookup_textLine, lookup_listLine, lookup_threads, List.lookup_cons, List.lookup_nil,
    String.reduceEq, String.reduceBEq, beq_self_eq_true, if_true, if_false, Option.none_or, Option.or_none,
    false_and, true_and] at hentry
  obtain ⟨hname, hruntime, himage, hdisplay, hpresentation, hprofile, hcommand, happ, hsocket, hcontainer, hpath,
    hcompress, hthreads, haudio, hargs, hmounts, henv⟩ := hentry
  have hread : ProfileConfig.optional u "runtime" Value.asStr = some (some s.runtime) := by
    unfold ProfileConfig.optional
    rw [get_textEntry hruntime]
    rfl
  have hsound : ProfileConfig.optional u "audio" Value.asBool = some (some s.audio) := by
    unfold ProfileConfig.optional
    rw [haudio.1]
    rfl
  obtain ⟨args, hargs, hargsTexts⟩ := Option.map_eq_some_iff.1 (optional_listEntry hargs)
  obtain ⟨mounts, hmounts, hmountsTexts⟩ := Option.map_eq_some_iff.1 (optional_listEntry hmounts)
  obtain ⟨env, henv, henvTexts⟩ := Option.map_eq_some_iff.1 (optional_listEntry henv)
  unfold ProfileConfig.decodeSession ProfileConfig.decodeFields ProfileConfig.required
  rw [hid, get_textEntry hname, get_textEntry himage, hread, optional_textEntry hdisplay,
    optional_textEntry hpresentation, optional_textEntry hprofile, optional_textEntry happ, optional_textEntry hcommand,
    optional_textEntry hsocket, optional_textEntry hcontainer, optional_textEntry hpath, optional_textEntry hcompress,
    optional_threadsEntry hthreads, hsound, hargs, hmounts, henv]
  show some _ = _
  congr 1
  unfold blanksAbsent
  rw [hargsTexts, hmountsTexts, henvTexts]
  rfl

/-! ## What can be written -/

theorem tomlString_written {text : String} :
    (ProfileConfig.tomlString text : Option (Value V)) ≠ none ↔ ∀ c ∈ text.toList, writable c = true := by
  unfold ProfileConfig.tomlString
  rw [← List.all_eq_true]
  by_cases h : text.toList.all writable = true <;> simp [h]

theorem textLine_written {key : String} {text : Option String} :
    (∀ line ∈ (ProfileConfig.textLine key text : List (Line V)), line.2 ≠ none) ↔
      ∀ value ∈ text, ∀ c ∈ value.toList, writable c = true := by
  unfold ProfileConfig.textLine
  cases text with
  | none => exact iff_of_true nofun nofun
  | some value =>
    by_cases hempty : value = ""
    · subst hempty
      simp
    · simp [hempty, tomlString_written]

theorem listLine_written {key : String} {texts : List String} :
    (∀ line ∈ (ProfileConfig.listLine key texts : List (Line V)), line.2 ≠ none) ↔
      ∀ value ∈ texts, ∀ c ∈ value.toList, writable c = true := by
  unfold ProfileConfig.listLine
  by_cases hnil : texts = []
  · rw [if_pos hnil, hnil]
    exact iff_of_true nofun nofun
  · rw [if_neg hnil, List.forall_mem_singleton]
    unfold ProfileConfig.tomlStringList
    simp only [← List.all_eq_true]
    by_cases h : (texts.all fun text => text.toList.all writable) = true <;> simp [h]

theorem threadsLine_written {threads : Option Nat} :
    (∀ line ∈ (threads.toList.map fun n : Nat =>
      (("waypipe_threads", if n < 2 ^ 63 then some (.integer n) else none) : Line V)), line.2 ≠ none) ↔
      ∀ n ∈ threads, n < 2 ^ 63 := by
  cases threads with
  | none => exact iff_of_true nofun nofun
  | some n => simp

/-- The table of a profile can be made exactly when the profile is writable. -/
theorem sessionToToml_ok_iff : (∃ table : Entries V, ProfileConfig.sessionToToml s = .ok table) ↔ Writable s := by
  unfold ProfileConfig.sessionToToml
  rw [ProfileConfig.lines_ok_iff ⟨fun _ _ _ => rfl, fun _ _ => rfl⟩]
  unfold sessionLines Writable texts
  simp only [List.forall_mem_append, textLine_written, listLine_written, threadsLine_written, List.forall_mem_cons,
    tomlString_written, List.not_mem_nil, false_implies, implies_true, and_true, List.flatMap_cons, List.flatMap_nil,
    Option.mem_toList, ne_eq, reduceCtorEq, not_false_eq_true]
  tauto

end CocoaWay.Sessions
