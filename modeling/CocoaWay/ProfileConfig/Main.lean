import CocoaWay.ProfileConfig.Identifiers
import CocoaWay.ProfileConfig.Transactions

/-!
# All or nothing, one profile at a time

* `Migrated`, `Applied` : what an operation does to the document, table by table;
* `Performed` : every way an operation can end, with the file after it;
* `Guarantees`, `profileConfig_guarantees` : what this means in every state that operations and edits by hand lead to;
* `failed_after_rename` : an operation that fails although the new file is in place.
-/

namespace CocoaWay.ProfileConfig
open Lib Control

variable {V : Type} {T : Type}

/-! ## Tables -/

theorem get_copyKey (source t : Entries V) (k key : String) :
    (copyKey source t k).get key = if key = k then source.get k else t.get key := by
  unfold copyKey
  cases source.get k with
  | none => exact Table.get_remove t k key
  | some v => exact Table.get_set t k key v

theorem get_copyKeys (source : Entries V) : ∀ (keys : List String) (t : Entries V) (key : String),
    (copyKeys keys source t).get key = if key ∈ keys then source.get key else t.get key
  | [], t, key => rfl
  | k :: keys, t, key => by
    show (copyKeys keys source (copyKey source t k)).get key = _
    rw [get_copyKeys source keys, get_copyKey]
    by_cases hm : key ∈ keys
    · rw [if_pos hm, if_pos (List.mem_cons_of_mem k hm)]
    · rw [if_neg hm]
      by_cases hk : key = k
      · subst hk
        rw [if_pos rfl, if_pos List.mem_cons_self]
      · rw [if_neg hk, if_neg fun h => (List.mem_cons.1 h).elim hk hm]

/-- A line of `session_to_toml`; `none` is a value that is no TOML. -/
abbrev Line (V : Type) := String × Option (Value V)

/-- The lines have different keys, in the order in which an edit writes them. -/
theorem sessionLines_keys (s : ContainerSession) :
    ((sessionLines s : List (Line V)).map Prod.fst).Sublist editedKeys := by
  have htext : ∀ key text, ((textLine key text : List (Line V)).map Prod.fst).Sublist [key] := by
    intro key text
    unfold textLine
    split
    · exact List.nil_sublist _
    · split
      · exact List.nil_sublist _
      · exact List.Sublist.refl _
  have hlist : ∀ key texts, ((listLine key texts : List (Line V)).map Prod.fst).Sublist [key] := by
    intro key texts
    unfold listLine
    split
    · exact List.nil_sublist _
    · exact List.Sublist.refl _
  have hthreads : ((s.waypipeThreads.toList.map fun n : Nat =>
      (("waypipe_threads", if n < 2 ^ 63 then some (.integer n) else none) : Line V)).map Prod.fst).Sublist
        ["waypipe_threads"] := by
    cases s.waypipeThreads with
    | none => exact List.nil_sublist _
    | some n => exact List.Sublist.refl _
  have hkeys : editedKeys = ["name", "runtime", "image"] ++ ["display"] ++ ["presentation"] ++ ["profile"] ++
      ["command"] ++ ["app"] ++ ["socket"] ++ ["container_socket"] ++ ["waypipe_path"] ++ ["waypipe_compress"] ++
      ["waypipe_threads"] ++ ["audio"] ++ ["runtime_args"] ++ ["mounts"] ++ ["env"] := rfl
  rw [hkeys]
  unfold sessionLines
  simp only [List.map_append]
  have hfirst : ((([("name", tomlString s.name), ("runtime", tomlString s.runtime),
      ("image", tomlString s.image)] :
      List (Line V)).map Prod.fst).Sublist ["name", "runtime", "image"]) := List.Sublist.refl _
  have haudio : (([("audio", some (.boolean s.audio))] : List (Line V)).map Prod.fst).Sublist ["audio"] :=
    List.Sublist.refl _
  iterate 3 refine List.Sublist.append ?_ (hlist _ _)
  refine List.Sublist.append (List.Sublist.append ?_ hthreads) haudio
  iterate 9 refine List.Sublist.append ?_ (htext _ _)
  exact hfirst

theorem sessionLines_nodup (s : ContainerSession) : ((sessionLines s : List (Line V)).map Prod.fst).Nodup :=
  (sessionLines_keys s).nodup (by decide +kernel)

/-! ## Tables of lines -/

section Lines

variable {f : Entries V → Line V → Except ConfigError (Entries V)} {lines : List (Line V)} {t t' : Entries V}

/-- A line is added to a table, and fails when its value is no TOML. -/
structure AddsLine (f : Entries V → Line V → Except ConfigError (Entries V)) : Prop where
  written : ∀ t key v, f t (key, some v) = .ok (t.set key v)
  refused : ∀ t key, f t (key, none) = .error .toml

/-- The table that is made of lines: each is the entry of its key. -/
theorem get_of_lines (hn : (lines.map Prod.fst).Nodup) (h : lines.foldlM f t = .ok t') (hf : AddsLine f)
    (key : String) : t'.get key = (lines.lookup key).getD (t.get key) ∧ lines.lookup key ≠ some none := by
  induction lines generalizing t with
  | nil =>
    rw [← Except.ok.inj h]
    exact ⟨rfl, nofun⟩
  | cons line lines ih =>
    obtain ⟨k, _ | v⟩ := line
    · rw [List.foldlM_cons, hf.refused] at h
      cases h
    rw [List.map_cons, List.nodup_cons] at hn
    rw [List.foldlM_cons, hf.written] at h
    obtain ⟨hget, hwritten⟩ := ih hn.2 h
    rw [List.lookup_cons]
    by_cases hk : key = k
    · subst hk
      have hlast : lines.lookup key = none := by
        rw [List.lookup_eq_none_iff]
        intro line hline
        rw [bne_iff_ne]
        exact fun heq => hn.1 (List.mem_map.2 ⟨line, hline, heq.symm⟩)
      rw [hget, hlast, beq_self_eq_true]
      exact ⟨Table.get_set_self _ _ _, nofun⟩
    · rw [hget, beq_eq_false_iff_ne.2 hk, Table.get_set_of_ne _ _ hk]
      exact ⟨rfl, hwritten⟩

theorem lines_ok_iff (hf : AddsLine f) : (∃ t', lines.foldlM f t = .ok t') ↔ ∀ line ∈ lines, line.2 ≠ none := by
  induction lines generalizing t with
  | nil => exact iff_of_true ⟨t, rfl⟩ nofun
  | cons line lines ih =>
    obtain ⟨key, v⟩ := line
    rw [List.foldlM_cons, List.forall_mem_cons]
    cases v with
    | none =>
      rw [hf.refused]
      refine iff_of_false ?_ fun h => h.1 rfl
      rintro ⟨t', h⟩
      cases h
    | some v =>
      rw [hf.written, ← ih (t := t.set key v)]
      exact ⟨fun h => ⟨nofun, h⟩, And.right⟩

end Lines

variable {draws draws' : List (Option ProfileId)} {d d' : Document V} {id : ProfileId} {t : Entries V}
  {s : ContainerSession} {a : Answers V} {op : Op}

theorem get_sessionToToml (h : sessionToToml s = .ok t) (key : String) : t.get key = ((sessionLines s).lookup key).getD
        (if key = "id" ∧ s.id.isSaved then some (.string s.id.toString) else none) ∧
      (sessionLines s : List (Line V)).lookup key ≠ some none := by
  unfold sessionToToml at h
  obtain ⟨hget, hwritten⟩ := get_of_lines (sessionLines_nodup s) h ⟨fun _ _ _ => rfl, fun _ _ => rfl⟩ key
  refine ⟨?_, hwritten⟩
  rw [hget]
  congr 1
  by_cases hs : s.id.isSaved = true
  · by_cases hkey : key = "id"
    · rw [if_pos hs, if_pos ⟨hkey, hs⟩, hkey, Table.get_set_self]
    · rw [if_pos hs, if_neg (fun h => hkey h.1), Table.get_set_of_ne _ _ hkey, Table.get_empty]
  · rw [if_neg hs, if_neg (fun h => hs h.2), Table.get_empty]

theorem lookup_sessionLines {key : String} (h : key ∉ editedKeys) :
    (sessionLines s : List (Line V)).lookup key = none := by
  rw [List.lookup_eq_none_iff]
  intro line hline
  rw [bne_iff_ne]
  rintro rfl
  exact h ((sessionLines_keys s).subset (List.mem_map_of_mem hline))

theorem sessionToToml_id (h : sessionToToml s = .ok t)
    (hs : s.id.isSaved = true) : t.get "id" = some (.string s.id.toString) := by
  rw [(get_sessionToToml h "id").1, lookup_sessionLines (by decide), if_pos ⟨rfl, hs⟩]
  rfl

theorem get_of_asStr {key text : String} (h : (t.get key).bind Value.asStr = some text) :
    t.get key = some (.string text) := by
  obtain ⟨v, hv, hstr⟩ := Option.bind_eq_some_iff.1 h
  rw [hv]
  cases v with
  | string text' => exact congrArg (fun text => some (Value.string text)) (Option.some.inj hstr)
  | _ => cases hstr

theorem position_ok {d : Document V} {rows : List (Entries V)} {i : Nat} (h : position d id = .ok (rows, i)) :
    rows = d.rows ∧ ∃ t, d.rows[i]? = some t ∧ t.get "id" = some (.string id.toString) := by
  obtain ⟨rows', htables, h⟩ := ok_of_bind h
  obtain rfl := tables_ok htables
  split at h
  · next i' hfind =>
    obtain ⟨rfl, rfl⟩ := Prod.mk.inj (Except.ok.inj h)
    obtain ⟨hlt, hp, -⟩ := List.findIdx?_eq_some_iff_getElem.1 hfind
    exact ⟨rfl, d.rows[i'], List.getElem?_eq_getElem hlt, get_of_asStr (of_decide_eq_true hp)⟩
  · cases h

/-- In an identified document the text of an identifier is that identifier's table only. -/
theorem Identified.rowId_of_get {d : Document V} (h : Identified d) (ht : t ∈ d.rows)
    (hget : t.get "id" = some (.string id.toString)) : rowId t = some id := by
  obtain ⟨id', hid⟩ := Option.isSome_iff_exists.1 (h.all t ht)
  have hget' := (rowId_some hid).1
  rw [hget, Option.some.injEq, Value.string.injEq] at hget'
  rw [hid, ProfileId.toString_injective hget']

/-! ## Operations -/

/-- A document with the identifiers that were missing. -/
structure Migrated (d d' : Document V) : Prop where
  others : d'.others = d.others
  rows : List.Forall₂ Inserted d.rows d'.rows
  identified : Identified d'

/-- What an operation does to a document whose tables all have their identifiers. -/
inductive Applied (d d' : Document V) : Op → Outcome → Prop
  | load {sessions : List ContainerSession} :
      d'.rows = d.rows → d'.others = d.others → decode d = .ok sessions → Applied d d' .load (.sessions sessions)
  /-- The new table has an identifier of its own, and otherwise keys of the profile or of the table it is a copy of. -/
  | append {session : ContainerSession} {id : ProfileId} {t : Entries V} :
      id.isSaved = true → id ∉ d.ids → d'.rows = d.rows ++ [t] → rowId t = some id → d'.others = d.others →
      (∀ key, key ∉ "id" :: editedKeys → t.get key = none ∨
        ∃ source ∈ d.rows, rowId source = some session.id ∧ t.get key = source.get key) →
      Applied d d' (.append session) (.created id)
  | replace {id : ProfileId} {session : ContainerSession} {i : Nat} {t t' : Entries V} :
      d.rows[i]? = some t → rowId t = some id → d'.rows = d.rows.set i t' →
      (∀ key, key ∉ editedKeys → t'.get key = t.get key) → d'.others = d.others →
      Applied d d' (.replace id session) .done
  | remove {id : ProfileId} {i : Nat} {t : Entries V} :
      d.rows[i]? = some t → rowId t = some id → d'.rows = d.rows.eraseIdx i → d'.others = d.others →
      Applied d d' (.remove id) .done

theorem rows_normal (d : Document V) : d.normal.rows = d.rows := by
  unfold Document.normal
  split
  · next h =>
    unfold Document.rows
    rw [h]
  · rfl

theorem others_normal (d : Document V) : d.normal.others = d.others := by
  unfold Document.normal
  split
  · rfl
  · rfl

theorem decode_normal (d : Document V) : decode d.normal = decode d := by
  unfold Document.normal
  split
  · next h =>
    unfold decode
    rw [h]
    rfl
  · rfl

theorem Identified.normal {d : Document V} (h : Identified d) : Identified d.normal := by
  refine ⟨?_, ?_, ?_⟩
  · rw [decode_normal]
    exact h.readable
  · rw [rows_normal]
    exact h.all
  · unfold Document.ids
    rw [rows_normal]
    exact h.unique

/-- The steps of a preparation; the second migration finds nothing to do when the operation keeps an identifier in every
table. -/
theorem prepare_ok {file : ConfigFile V} {operation : Operation V T} {result : T} {updated : Document V}
    (h : prepare a file operation = .ok (result, updated))
    (hop : ∀ d draws result d' draws', Identified d → operation d draws = .ok (result, d', draws') →
      ∀ t ∈ d'.rows, (t.get "id").isSome = true) :
    ∃ d₀ d d' draws draws', parse file = .ok d₀ ∧ Migrated d₀ d ∧ operation d draws = .ok (result, d', draws') ∧
      Identified d' ∧ updated = d'.normal := by
  obtain ⟨d₀, hparse, h⟩ := ok_of_bind h
  obtain ⟨⟨d, draws⟩, hmigrate, h⟩ := ok_of_bind h
  obtain ⟨⟨r, d', draws'⟩, hoperation, h⟩ := ok_of_bind h
  obtain ⟨⟨d₂, draws₂⟩, hagain, h⟩ := ok_of_bind h
  dsimp only at hoperation hagain h
  split at h
  · cases h
  · obtain ⟨rfl, rfl⟩ := Prod.mk.inj (Except.ok.inj h)
    obtain ⟨hothers, hrows, hidentified⟩ := migrate_spec hmigrate
    obtain rfl := migrate_eq_self hagain (hop _ _ _ _ _ hidentified hoperation)
    exact ⟨d₀, d, d₂, draws, draws', hparse, ⟨hothers, hrows, hidentified⟩, hoperation, (migrate_spec hagain).2.2, rfl⟩

theorem decodeOperation_ok
    {sessions : List ContainerSession} (h : decodeOperation d draws = .ok (sessions, d', draws')) :
    d' = d ∧ decode d = .ok sessions := by
  obtain ⟨sessions', hdecode, h⟩ := ok_of_bind h
  obtain ⟨rfl, he⟩ := Prod.mk.inj (Except.ok.inj h)
  obtain ⟨rfl, -⟩ := Prod.mk.inj he
  exact ⟨rfl, hdecode⟩

theorem appendOperation_ok {session : ContainerSession} (hd : Identified d)
    (h : appendOperation a session d draws = .ok (id, d', draws')) :
    Applied d d' (.append session) (.created id) := by
  obtain ⟨sessions, hdecode, h⟩ := ok_of_bind h
  obtain ⟨-, -, h⟩ := ok_of_bind h
  obtain ⟨⟨id', draws₁⟩, hfresh, h⟩ := ok_of_bind h
  obtain ⟨known, hknown, h⟩ := ok_of_bind h
  obtain ⟨rows, htables, h⟩ := ok_of_bind h
  obtain ⟨rfl, he⟩ := Prod.mk.inj (Except.ok.inj h)
  obtain ⟨rfl, -⟩ := Prod.mk.inj he
  obtain rfl := tables_ok htables
  obtain ⟨hsaved, hnew⟩ := freshId_ok hfresh
  have hfree : id' ∉ d.ids := by
    unfold Document.ids
    rw [← savedIds_eq (decode_rows hdecode)]
    exact fun hm => hnew (List.mem_filter.1 hm).1
  refine .append hsaved hfree rfl ?_ rfl fun key hkey => ?_
  · apply rowId_of_get hsaved
    rw [get_copyKeys, if_pos List.mem_cons_self]
    exact sessionToToml_id hknown hsaved
  · rw [get_copyKeys, if_neg hkey]
    cases hfind : d.rows.find? fun t => (t.get "id").bind Value.asStr = some session.id.toString with
    | none =>
      left
      show known.get key = none
      have hline := lookup_sessionLines (s := { session with id := id' }) (V := V)
        fun hedited => hkey (List.mem_cons_of_mem _ hedited)
      have hne : key ≠ "id" := fun he => hkey (he ▸ List.mem_cons_self)
      rw [(get_sessionToToml hknown key).1, hline, if_neg fun h => hne h.1]
      rfl
    | some source =>
      right
      have hm := List.mem_of_find?_eq_some hfind
      have hp := List.find?_some hfind
      exact ⟨source, hm, hd.rowId_of_get hm (get_of_asStr (of_decide_eq_true hp)), rfl⟩

theorem replaceOperation_ok {session : ContainerSession} (hd : Identified d)
    (h : replaceOperation a id session d draws = .ok ((), d', draws')) :
    Applied d d' (.replace id session) .done := by
  obtain ⟨⟨rows, i⟩, hposition, h⟩ := ok_of_bind h
  obtain ⟨rfl, t, ht, hget⟩ := position_ok hposition
  dsimp only at h
  split at h
  · cases h
  · obtain ⟨sessions, -, h⟩ := ok_of_bind h
    obtain ⟨-, -, h⟩ := ok_of_bind h
    obtain ⟨replacement, -, h⟩ := ok_of_bind h
    obtain ⟨-, he⟩ := Prod.mk.inj (Except.ok.inj h)
    obtain ⟨rfl, -⟩ := Prod.mk.inj he
    have hkeys : ∀ key, key ∉ editedKeys → (copyKeys editedKeys replacement t).get key = t.get key := by
      intro key hkey
      rw [get_copyKeys, if_neg hkey]
    refine .replace ht (hd.rowId_of_get (List.mem_of_getElem? ht) hget) ?_ hkeys rfl
    have : Inhabited (Entries V) := ⟨∅⟩
    show d.rows.modify i (copyKeys editedKeys replacement) = _
    rw [List.modify_eq_set, ht, Option.getD_some]

theorem removeOperation_ok
    (hd : Identified d) (h : removeOperation id d draws = .ok ((), d', draws')) : Applied d d' (.remove id) .done := by
  obtain ⟨⟨rows, i⟩, hposition, h⟩ := ok_of_bind h
  obtain ⟨rfl, t, ht, hget⟩ := position_ok hposition
  obtain ⟨-, he⟩ := Prod.mk.inj (Except.ok.inj h)
  obtain ⟨rfl, -⟩ := Prod.mk.inj he
  exact .remove ht (hd.rowId_of_get (List.mem_of_getElem? ht) hget) rfl rfl

/-- The operation of a document, and what it means for the result. -/
structure Means (op : Op) (operation : Operation V T) (outcome : T → Outcome) : Prop where
  applied : ∀ d draws result d' draws', Identified d → operation d draws = .ok (result, d', draws') →
    Applied d d' op (outcome result)

/-- Every table of the new document has an identifier. -/
theorem Applied.get_id {outcome : Outcome} (h : Applied d d' op outcome)
    (hd : Identified d) : ∀ t ∈ d'.rows, (t.get "id").isSome = true := by
  cases h with
  | load hrows _ _ =>
    rw [hrows]
    exact hd.get_id
  | append _ _ hrows hid _ _ =>
    rw [hrows]
    intro t ht
    rcases List.mem_append.1 ht with ht | ht
    · exact hd.get_id t ht
    · rw [List.mem_singleton.1 ht, (rowId_some hid).1]
      rfl
  | replace ht hid hrows hkeys _ =>
    rw [hrows]
    intro t' ht'
    rcases List.mem_or_eq_of_mem_set ht' with hm | rfl
    · exact hd.get_id t' hm
    · rw [hkeys "id" (by decide), (rowId_some hid).1]
      rfl
  | remove _ _ hrows _ =>
    rw [hrows]
    intro t ht
    exact hd.get_id t (List.mem_of_mem_eraseIdx ht)

theorem Applied.normal {outcome : Outcome} (h : Applied d d' op outcome) : Applied d d'.normal op outcome := by
  have hrows := rows_normal d'
  have hothers := others_normal d'
  cases h with
  | load h₁ h₂ h₃ => exact .load (hrows.trans h₁) (hothers.trans h₂) h₃
  | append h₁ h₂ h₃ h₄ h₅ h₆ => exact .append h₁ h₂ (hrows.trans h₃) h₄ (hothers.trans h₅) h₆
  | replace h₁ h₂ h₃ h₄ h₅ => exact .replace h₁ h₂ (hrows.trans h₃) h₄ (hothers.trans h₅)
  | remove h₁ h₂ h₃ h₄ => exact .remove h₁ h₂ (hrows.trans h₃) (hothers.trans h₄)

/-! ## How an operation ends -/

/-- What a complete operation leads to. -/
structure Complete (file : ConfigFile V) (op : Op) (outcome : Outcome) (d' : Document V) : Prop where
  applied : ∃ d₀ d, parse file = .ok d₀ ∧ Migrated d₀ d ∧ Applied d d' op outcome
  identified : Identified d'

/-- Every way an operation can end: with the file, and the result. -/
inductive Performed (a : Answers V) (file : ConfigFile V) (op : Op) : ConfigFile V × Except ConfigError Outcome → Prop
  | failed {e : ConfigError} : Performed a file op (file, .error e)
  /-- The file was not as it had been read. -/
  | overtaken {e : ConfigError} : Performed a file op (a.edited file, .error e)
  /-- The file already is what the operation leads to. -/
  | kept {outcome : Outcome} {d' : Document V} : Complete file op outcome d' → file = some (.document d') →
      Performed a file op (file, .ok outcome)
  /-- The new file is in place; syncing the directory may fail. -/
  | published {outcome : Outcome} {d' : Document V} : Complete file op outcome d' → a.edited file = file →
      a.rename.isOk = true → Performed a file op (some (.document d'), a.syncDirectory.map fun _ => outcome)

theorem transaction_performed [DecidableEq V] (a : Answers V) (file : ConfigFile V)
    {operation : Operation V T} {outcome : T → Outcome} (hop : Means op operation outcome) :
    Performed a file op ((transaction a file operation).1, (transaction a file operation).2.map outcome) := by
  unfold transaction
  split
  · exact .failed
  · exact .failed
  · cases hprepare : prepare a file operation with
    | error e => exact .failed
    | ok r =>
      obtain ⟨result, updated⟩ := r
      obtain ⟨d₀, d, d', draws, draws', hparse, hmigrated, hoperation, hidentified, rfl⟩ :=
        prepare_ok hprepare fun d draws result d' draws' hd h => (hop.applied _ _ _ _ _ hd h).get_id hd
      have happlied := (hop.applied _ _ _ _ _ hmigrated.identified hoperation).normal
      have hcomplete : Complete file op (outcome result) d'.normal :=
        ⟨⟨d₀, d, hparse, hmigrated, happlied⟩, hidentified.normal⟩
      dsimp only
      split
      · next hfile => exact .kept hcomplete hfile
      · unfold atomicWrite
        cases a.temporary with
        | error e => exact .failed
        | ok _ =>
          dsimp only
          cases a.reread with
          | error e => exact .overtaken
          | ok _ =>
            dsimp only
            by_cases hsame : a.edited file = file
            · rw [if_neg (not_not.2 hsame)]
              cases hrename : a.rename with
              | error e => exact .failed
              | ok _ =>
                have hpublished := Performed.published (a := a) hcomplete hsame (by rw [hrename]; rfl)
                cases hsync : a.syncDirectory with
                | error e =>
                  rw [hsync] at hpublished
                  exact hpublished
                | ok _ =>
                  rw [hsync] at hpublished
                  exact hpublished
            · rw [if_pos hsame]
              exact .overtaken

theorem means_load : Means (V := V) .load decodeOperation .sessions :=
  ⟨fun d draws result d' draws' _ h => by
    obtain ⟨rfl, hdecode⟩ := decodeOperation_ok h
    exact .load rfl rfl hdecode⟩

theorem load_performed [DecidableEq V] (a : Answers V) (file : ConfigFile V) :
    Performed a file .load ((load a file).1, (load a file).2.map .sessions) := by
  unfold load
  cases a.peek with
  | error e => exact .failed
  | ok _ =>
    dsimp only
    cases hfile : file with
    | none => exact transaction_performed a none means_load
    | some contents =>
      dsimp only
      split
      · exact .failed
      · next sessions hread =>
        split
        · next hsaved =>
          obtain ⟨sessions', hdecode, hread⟩ := ok_of_bind hread
          obtain ⟨seen, hvalid, hread⟩ := ok_of_bind hread
          obtain rfl := Except.ok.inj hread
          cases contents with
          | invalid text => cases hdecode
          | document d =>
            have hdecode : decode d = .ok sessions' := hdecode
            have hrows := decode_rows hdecode
            have hidentified : Identified d := by
              refine ⟨⟨_, hdecode⟩, rowId_of_saved hrows hsaved, ?_⟩
              unfold Document.ids
              rw [← savedIds_eq hrows]
              exact (validateIds_ok hvalid).1
            have hmigrated : Migrated d d := by
              refine ⟨rfl, ?_, hidentified⟩
              rw [List.forall₂_same]
              exact fun t ht => Or.inl ⟨hidentified.get_id t ht, rfl⟩
            exact .kept ⟨⟨d, d, rfl, hmigrated, .load rfl rfl hdecode⟩, hidentified⟩ rfl
        · exact transaction_performed a _ means_load

theorem perform_performed [DecidableEq V] (a : Answers V) (file : ConfigFile V) (op : Op) :
    Performed a file op (perform a file op) := by
  cases op with
  | load => exact load_performed a file
  | append session =>
    exact transaction_performed a file ⟨fun d draws id d' draws' hd h => appendOperation_ok hd h⟩
  | replace id session =>
    exact transaction_performed a file ⟨fun d draws _ d' draws' hd h => replaceOperation_ok hd h⟩
  | remove id =>
    have hop : Means (V := V) (.remove id) (removeOperation id) fun _ => .done :=
      ⟨fun d draws _ d' draws' hd h => removeOperation_ok hd h⟩
    show Performed a file (.remove id) ((remove a file id).1, (remove a file id).2.map fun _ => .done)
    unfold remove
    by_cases hi : Activity.inactive a.operations id = true
    · rw [if_pos hi]
      exact transaction_performed a file hop
    · rw [if_neg hi]
      exact .failed

/-! ## What this means -/

structure Guarantees [DecidableEq V] (s : State V) : Prop where
  /-- A file that is as an operation left it has unique identifiers, one for each profile. -/
  unique : s.ours = true → s.file = none ∨ ∃ d, s.file = some (.document d) ∧ Identified d
  /-- An operation that succeeds is complete: the missing identifiers, and its own change to one table. -/
  complete : ∀ a op outcome, (perform a s.file op).2 = .ok outcome →
    ∃ d', (perform a s.file op).1 = some (.document d') ∧ Complete s.file op outcome d'
  /-- An operation that fails leaves the file as it was, or as another program made it meanwhile, unless the directory
  could not be synced after the rename: then the operation is complete in the file. -/
  failed : ∀ a op e, (perform a s.file op).2 = .error e →
    (perform a s.file op).1 = s.file ∨ (perform a s.file op).1 = a.edited s.file ∨
      a.syncDirectory = .error e ∧ a.edited s.file = s.file ∧ ∃ outcome d',
        (perform a s.file op).1 = some (.document d') ∧ Complete s.file op outcome d'
  /-- A migration inserts the missing identifiers and nothing else; a second one changes nothing. -/
  migrated : ∀ (d d' : Document V) draws draws', migrate d draws = .ok (d', draws') →
    Migrated d d' ∧ ∀ draws, migrate d' draws = .ok (d', draws)

theorem file_of_performed [DecidableEq V] {file : ConfigFile V}
    {r : ConfigFile V × Except ConfigError Outcome} (h : Performed a file op r) :
    r.1 = file ∨ r.1 = a.edited file ∨ ∃ d, r.1 = some (.document d) ∧ Identified d := by
  cases h with
  | failed => exact Or.inl rfl
  | overtaken => exact Or.inr (Or.inl rfl)
  | kept _ _ => exact Or.inl rfl
  | published hcomplete _ _ => exact Or.inr (Or.inr ⟨_, rfl, hcomplete.identified⟩)

/-- What an operation leaves is identified. -/
def Ours (s : State V) : Prop := s.ours = true → s.file = none ∨ ∃ d, s.file = some (.document d) ∧ Identified d

theorem Ours.step [DecidableEq V] {s s' : State V} (h : Ours s) {e : Event V} (hs : step s e = some s') : Ours s' := by
  cases e with
  | edit file =>
    obtain rfl := Option.some.inj hs
    exact nofun
  | operation op a =>
    obtain rfl := Option.some.inj hs
    intro hours
    dsimp only at hours ⊢
    split at hours
    · next hsame =>
      rw [hsame]
      exact h hours
    · next hchanged =>
      rcases file_of_performed (perform_performed a s.file op) with he | he | he
      · exact absurd he hchanged
      · exact absurd he (of_decide_eq_true hours)
      · exact Or.inr he

/-- For every document and any sequence of operations and edits by hand, whichever step of an operation fails. -/
theorem profileConfig_guarantees [DecidableEq V] {s : State V} (h : system.Reachable s) : Guarantees s := by
  refine ⟨?_, fun a op outcome hok => ?_, fun a op e herr => ?_, fun d d' draws draws' hm => ?_⟩
  · exact h.invariant (I := Ours) (fun _ => Or.inl rfl) fun _ _ _ hi hs => hi.step hs
  · have hp := perform_performed a s.file op
    generalize perform a s.file op = r at hok hp
    cases hp with
    | failed => cases hok
    | overtaken => cases hok
    | kept hcomplete hfile =>
      obtain rfl := Except.ok.inj hok
      exact ⟨_, hfile, hcomplete⟩
    | published hcomplete _ _ =>
      cases hsync : a.syncDirectory with
      | error e =>
        rw [hsync] at hok
        cases hok
      | ok _ =>
        rw [hsync] at hok
        obtain rfl := Except.ok.inj hok
        exact ⟨_, rfl, hcomplete⟩
  · have hp := perform_performed a s.file op
    generalize perform a s.file op = r at herr hp
    cases hp with
    | failed => exact Or.inl rfl
    | overtaken => exact Or.inr (Or.inl rfl)
    | kept _ _ => cases herr
    | published hcomplete hsame _ =>
      cases hsync : a.syncDirectory with
      | error e' =>
        rw [hsync] at herr
        obtain rfl := Except.error.inj herr
        exact Or.inr (Or.inr ⟨rfl, hsame, _, _, rfl, hcomplete⟩)
      | ok _ =>
        rw [hsync] at herr
        cases herr
  · obtain ⟨hothers, hrows, hidentified⟩ := migrate_spec hm
    exact ⟨⟨hothers, hrows, hidentified⟩, migrate_of_identified hidentified⟩

/-! ## Two runs -/

def firstId : ProfileId := .ofByte 1

/-- A profile written by hand. -/
def handWritten : Entries Empty := (Table.set ∅ "name" (.string "gimp")).set "image" (.string "gimp:latest")

/-- The profile of `handWritten`, with an identifier. -/
def identified : Entries Empty := handWritten.set "id" (.string firstId.toString)

def configOf (rows : List (Entries Empty)) :
    ConfigFile Empty := some (.document { session := .tables rows, others := ∅ })

/-- After an edit by hand a `load` inserts the identifier. -/
def editedRun : List (Event Empty) := [.edit (configOf [handWritten]), .operation .load { draws := [some firstId] }]

theorem profileConfig_guarantees_edited :
    ∃ s : State Empty, system.Reachable s ∧ s.ours = true ∧ s.file = configOf [identified] ∧ Guarantees s := by
  have hrun : ((system (V := Empty)).run system.init editedRun).any (fun s =>
      s.ours && decide (s.file = configOf [identified])) = true := by decide +kernel
  obtain ⟨s, hs, hp⟩ := System.exists_reachable hrun
  rw [Bool.and_eq_true, decide_eq_true_eq] at hp
  exact ⟨s, hs, hp.1, hp.2, profileConfig_guarantees hs⟩

/-- An operation fails, and the file is not as it was: the profile is removed, and the directory cannot be synced. -/
theorem failed_after_rename :
    (remove { syncDirectory := .error .io } (configOf [identified]) firstId).2.isOk = false ∧
      (remove { syncDirectory := .error .io } (configOf [identified]) firstId).1 =
        some (.document { session := .absent, others := ∅ }) ∧
      (some (.document { session := .absent, others := ∅ }) : ConfigFile Empty) ≠ configOf [identified] := by
  decide

end CocoaWay.ProfileConfig
