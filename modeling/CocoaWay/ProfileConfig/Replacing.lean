import CocoaWay.ProfileConfig.Main

/-!
# A profile that is replaced

* `Answers.Succeed` : the system does what it is asked, and no other program edits the file meanwhile;
* `transaction_ok`, `transaction_error`, `prepare_eq` : a transaction on an identified document is then its operation;
* `Saved` : a profile of an identified document; `Saved.position`, `Saved.replaced` : its table, and the document with
  another profile in its place;
* `ReadAs` : what a table is read as that a profile is written over;
* `Saved.replace_iff`, `Saved.resolveSession_replace` : when it is replaced, and what is loaded then.
-/

namespace CocoaWay.ProfileConfig
open Lib Control

variable {V : Type} {T : Type} {a : Answers V}

/-! ## Transactions that meet no failure -/

structure Answers.Succeed (a : Answers V) : Prop where
  lock : a.lock = .ok ()
  read : a.read = .ok ()
  temporary : a.temporary = .ok ()
  edit : a.edit = none
  reread : a.reread = .ok ()
  rename : a.rename = .ok ()
  syncDirectory : a.syncDirectory = .ok ()

section Transaction

variable {file : ConfigFile V} {operation : Operation V T} {result : T} {d d' : Document V} {e : ConfigError}

theorem transaction_error [DecidableEq V] (ha : a.Succeed) (h : prepare a file operation = .error e) :
    transaction a file operation = (file, .error e) := by
  unfold transaction
  rw [ha.lock, ha.read]
  dsimp only
  rw [h]

theorem transaction_ok [DecidableEq V] (ha : a.Succeed) (h : prepare a file operation = .ok (result, d)) :
    transaction a file operation = (some (.document d), .ok result) := by
  unfold transaction
  rw [ha.lock, ha.read]
  dsimp only
  rw [h]
  dsimp only
  split
  next hsame => rw [hsame]
  · have hedited : a.edited file = file := by
      unfold Answers.edited
      rw [ha.edit]
      rfl
    unfold atomicWrite
    rw [ha.temporary, ha.reread, hedited, ha.rename, ha.syncDirectory]
    simp only [ne_eq, not_true_eq_false, if_false]

/-- There is nothing to migrate before an operation on an identified document. -/
theorem prepare_error (hd : Identified d) (h : operation d a.draws = .error e) :
    prepare a (some (.document d)) operation = .error e := by
  unfold prepare
  rw [bind_of_ok (show parse (some (.document d)) = .ok d from rfl), bind_of_ok (migrate_of_identified hd _)]
  dsimp only
  rw [h]
  rfl

theorem prepare_eq {draws : List (Option ProfileId)} (hd : Identified d)
    (h : operation d a.draws = .ok (result, d', draws)) (hd' : Identified d') :
    prepare a (some (.document d)) operation =
      if a.tooLarge then .error (.invalidData "configuration exceeds the 1 MiB size limit")
      else .ok (result, d'.normal) := by
  unfold prepare
  rw [bind_of_ok (show parse (some (.document d)) = .ok d from rfl), bind_of_ok (migrate_of_identified hd _)]
  dsimp only
  rw [bind_of_ok h]
  dsimp only
  rw [bind_of_ok (migrate_of_identified hd' _)]

end Transaction

/-! ## Loading -/

variable {sessions : List ContainerSession} {d : Document V}

theorem ids_of_identified (hd : Identified d)
    (h : decode d = .ok sessions) : sessions.map ContainerSession.id = d.ids ∧ ∀ s ∈ sessions, s.id.isSaved = true := by
  have hrows := decode_rows h
  have hsaved := List.all_eq_true.1 (saved_of_rowId hrows hd.get_id)
  refine ⟨?_, hsaved⟩
  rw [Document.ids, ← savedIds_eq hrows]
  refine (List.filter_eq_self.2 fun id hid => ?_).symm
  obtain ⟨s, hs, rfl⟩ := List.mem_map.1 hid
  exact hsaved s hs

theorem load_identified [DecidableEq V] (ha : a.peek = .ok ()) (hd : Identified d) (h : decode d = .ok sessions) :
    (load a (some (.document d))).2 = .ok sessions := by
  obtain ⟨hids, hsaved⟩ := ids_of_identified hd h
  have hnodup : (savedIds sessions).Nodup := by
    rw [savedIds_eq (decode_rows h)]
    exact hd.unique
  obtain ⟨seen, hvalid⟩ := validateIds_of_nodup hnodup (fun _ _ => List.not_mem_nil)
  have hread : (parse (some (.document d))).bind decode = .ok sessions := h
  unfold load
  rw [ha]
  dsimp only
  rw [bind_of_ok hread, bind_of_ok hvalid]
  dsimp only
  rw [if_pos (List.all_eq_true.2 hsaved)]

theorem find_of_nodup (h : (sessions.map ContainerSession.id).Nodup)
    {s : ContainerSession} (hs : s ∈ sessions) : sessions.find? (fun t => t.id = s.id) = some s := by
  induction sessions with
  | nil => cases hs
  | cons t sessions ih =>
    rw [List.map_cons, List.nodup_cons] at h
    rcases List.mem_cons.1 hs with rfl | hs
    · exact List.find?_cons_of_pos (by simp)
    · have hne : t.id ≠ s.id := fun he => h.1 (he ▸ List.mem_map_of_mem hs)
      rw [List.find?_cons_of_neg (by simpa using hne)]
      exact ih h.2 hs

theorem resolveSession_of_mem [DecidableEq V] (ha : a.peek = .ok ()) (hd : Identified d) (h : decode d = .ok sessions) {s : ContainerSession} (hs : s ∈ sessions) :
    resolveSession a (some (.document d)) s.id = .ok s := by
  have hnodup : (sessions.map ContainerSession.id).Nodup := by
    rw [(ids_of_identified hd h).1]
    exact hd.unique
  unfold resolveSession
  rw [bind_of_ok (load_identified ha hd h), find_of_nodup hnodup hs]

/-! ## Replacing -/

theorem tables_of_decode (h : decode d = .ok sessions) (hne : sessions ≠ []) : tables d = .ok d.rows := by
  unfold decode at h
  unfold tables Document.rows
  cases hs : d.session with
  | absent => rfl
  | tables rows => rfl
  | array elements =>
    rw [hs] at h
    have hm := ok_of_getD h
    have hrows : elements.mapM Element.row? = some (elements.filterMap Element.row?) := by
      clear h hs hne
      induction elements generalizing sessions with
      | nil => rfl
      | cons e elements ih =>
        rw [List.mapM_cons] at hm
        obtain ⟨s, he, hm⟩ := Option.bind_eq_some_iff.1 hm
        obtain ⟨ss, hss, -⟩ := Option.bind_eq_some_iff.1 hm
        cases e with
        | value v => cases he
        | table t =>
          rw [List.mapM_cons, ih hss]
          rfl
    have hnil : elements ≠ [] := by
      rintro rfl
      exact hne (Option.some.inj hm).symm
    dsimp only
    rw [if_neg hnil, hrows]
    rfl
  | other v =>
    rw [hs] at h
    cases h

/-- A table that the profile is written over is read as `u`. -/
def ReadAs (V : Type) (session u : ContainerSession) : Prop :=
  ∀ table t : Entries V, sessionToToml session = .ok table → rowId t = some session.id →
    decodeSession (copyKeys editedKeys table t) = some u

/-- A profile of a document that is as the program leaves it. -/
structure Saved (d : Document V) (sessions : List ContainerSession) (s : ContainerSession) : Prop where
  identified : Identified d
  decoded : decode d = .ok sessions
  mem : s ∈ sessions

namespace Saved

variable {d : Document V} {sessions : List ContainerSession} {s session : ContainerSession}

theorem position (h : Saved d sessions s) :
    ∃ i t, ProfileConfig.position d s.id = .ok (d.rows, i) ∧ d.rows[i]? = some t ∧ rowId t = some s.id := by
  have hrows := decode_rows h.decoded
  obtain ⟨j, hj⟩ := List.getElem?_of_mem h.mem
  rw [getElem?_mapM hrows, Option.bind_eq_some_iff] at hj
  obtain ⟨u, hu, hdecode⟩ := hj
  have hmem := List.mem_of_getElem? hu
  have hget : u.get "id" = some (.string s.id.toString) := by
    rcases decodeSession_id hdecode with ⟨hnone, -⟩ | ⟨hrow, -⟩
    · have hsome := h.identified.get_id u hmem
      rw [hnone] at hsome
      cases hsome
    · exact (rowId_some hrow).1
  have hp : ((u.get "id").bind Value.asStr = some s.id.toString) := by
    rw [hget]
    rfl
  have htables : tables d = .ok d.rows := tables_of_decode h.decoded (List.ne_nil_of_mem h.mem)
  cases hfind : d.rows.findIdx? fun t => (t.get "id").bind Value.asStr = some s.id.toString with
  | none =>
    have hno := List.findIdx?_eq_none_iff.1 hfind u hmem
    rw [decide_eq_true hp] at hno
    cases hno
  | some i =>
    obtain ⟨hlt, hi, -⟩ := List.findIdx?_eq_some_iff_getElem.1 hfind
    refine ⟨i, d.rows[i], ?_, List.getElem?_eq_getElem hlt, ?_⟩
    · unfold ProfileConfig.position
      rw [bind_of_ok htables, hfind]
    · exact h.identified.rowId_of_get (List.getElem_mem hlt) (get_of_asStr (of_decide_eq_true hi))

/-- The document with another profile in the place of the profile: it has the same identifiers, and that profile is
among its own. -/
theorem replaced {i : Nat} {t replacement : Entries V} (h : Saved d sessions s) (ht : d.rows[i]? = some t)
    (hid : rowId t = some s.id) {u : ContainerSession}
    (hu : decodeSession (copyKeys editedKeys replacement t) = some u) :
    Saved { d with session := .tables (d.rows.modify i (copyKeys editedKeys replacement)) } (sessions.set i u) u := by
  have hrows := decode_rows h.decoded
  obtain ⟨hlt, -⟩ := List.getElem?_eq_some_iff.1 ht
  have hmodify : d.rows.modify i (copyKeys editedKeys replacement) =
      d.rows.set i (copyKeys editedKeys replacement t) := by
    have : Inhabited (Entries V) := ⟨∅⟩
    rw [List.modify_eq_set, ht, Option.getD_some]
  have hrow : rowId (copyKeys editedKeys replacement t) = some s.id := by
    unfold rowId
    rw [get_copyKeys, if_neg (by decide)]
    exact hid
  have hids : (d.rows.set i (copyKeys editedKeys replacement t)).map rowId = d.rows.map rowId := by
    obtain ⟨hlt, rfl⟩ := List.getElem?_eq_some_iff.1 ht
    have hlt' : i < (d.rows.map rowId).length := by rwa [List.length_map]
    have hself : (d.rows.map rowId)[i] = some s.id := by rw [List.getElem_map, hid]
    rw [List.map_set, hrow, ← hself]
    exact List.set_getElem_self hlt'
  have hdecode := mapM_set hrows hu i
  rw [hmodify]
  refine ⟨⟨⟨_, decode_tables hdecode⟩, fun t' ht' => ?_, ?_⟩, decode_tables hdecode, ?_⟩
  · rcases List.mem_or_eq_of_mem_set ht' with hm | rfl
    · exact h.identified.all t' hm
    · rw [hrow]
      rfl
  · have hunique := h.identified.unique
    unfold Document.ids at hunique ⊢
    have hmap : ∀ rows : List (Entries V), rows.filterMap rowId = (rows.map rowId).filterMap id := fun rows => by
      rw [List.filterMap_map]
      rfl
    rw [hmap] at hunique
    show ((d.rows.set i (copyKeys editedKeys replacement t)).filterMap rowId).Nodup
    rw [hmap, hids]
    exact hunique
  · refine List.mem_set ?_ _
    rw [length_mapM hrows]
    exact hlt

theorem replaceOperation_eq (h : Saved d sessions s) (hid : session.id = s.id) :
    ∃ i t, d.rows[i]? = some t ∧ rowId t = some s.id ∧ ∀ draws, replaceOperation a s.id session d draws = (do
      validateProfileName a.identities session sessions (some s.id)
      let replacement ← sessionToToml session
      .ok ((), { d with session := .tables (d.rows.modify i (copyKeys editedKeys replacement)) }, draws)) := by
  obtain ⟨i, t, hposition, ht, hrow⟩ := h.position
  have hsame : { session with id := s.id } = session := by
    rw [← hid]
  refine ⟨i, t, ht, hrow, fun draws => ?_⟩
  unfold replaceOperation
  rw [bind_of_ok hposition]
  dsimp only
  rw [if_neg (by simp [hid]), bind_of_ok h.decoded, hsame]

theorem normal (h : Saved d sessions s) : Saved d.normal sessions s :=
  ⟨h.identified.normal, (decode_normal d).trans h.decoded, h.mem⟩

section Replace

variable [DecidableEq V] {u : ContainerSession} {table : Entries V}

/-- The file with another profile in place of the profile, unless it were too large: the new table is read as `u`. -/
theorem replace_eq (h : Saved d sessions s) (ha : a.Succeed) (hid : session.id = s.id)
    (hname : validateProfileName a.identities session sessions (some s.id) = .ok ())
    (htable : sessionToToml session = .ok table)
    (hread : ReadAs V session u) :
    ∃ d' sessions', Saved d' sessions' u ∧ replace a (some (.document d)) s.id session =
      if a.tooLarge then (some (.document d), .error (.invalidData "configuration exceeds the 1 MiB size limit"))
      else (some (.document d'), .ok ()) := by
  obtain ⟨i, t, ht, hrow, hoperation⟩ := h.replaceOperation_eq (a := a) hid
  have hnew := h.replaced ht hrow (hread table t htable (hid ▸ hrow))
  have hprepare := prepare_eq h.identified ((hoperation a.draws).trans (by
    rw [bind_of_ok hname, bind_of_ok htable])) hnew.identified
  refine ⟨_, _, hnew.normal, ?_⟩
  unfold replace
  by_cases hlarge : a.tooLarge = true
  · rw [if_pos hlarge] at hprepare ⊢
    exact transaction_error ha hprepare
  · rw [if_neg hlarge] at hprepare ⊢
    exact transaction_ok ha hprepare

/-- A profile is replaced exactly when its name is free, its table can be written, and the file stays within its limit.
-/
theorem replace_iff (h : Saved d sessions s) (ha : a.Succeed) (hid : session.id = s.id)
    (hread : ReadAs V session u) :
    (replace a (some (.document d)) s.id session).2 = .ok () ↔
      validateProfileName a.identities session sessions (some s.id) = .ok () ∧
        (∃ table : Entries V, sessionToToml session = .ok table) ∧ a.tooLarge = false := by
  obtain ⟨i, t, -, -, hoperation⟩ := h.replaceOperation_eq (a := a) hid
  have hrefused : ∀ {e : ConfigError}, (∀ draws, replaceOperation a s.id session d draws = .error e) →
      (replace a (some (.document d)) s.id session).2 ≠ .ok () := by
    intro e he
    have hprepare : prepare a (some (.document d)) (replaceOperation a s.id session) = .error e :=
      prepare_error h.identified (he _)
    unfold replace
    rw [transaction_error ha hprepare]
    exact nofun
  cases hname : validateProfileName a.identities session sessions (some s.id) with
  | error e =>
    refine iff_of_false (hrefused (e := e) fun draws => ?_) fun hall => nomatch hall.1
    rw [hoperation, hname]
    rfl
  | ok _ =>
    cases htable : (sessionToToml session : Except ConfigError (Entries V)) with
    | error e =>
      refine iff_of_false (hrefused (e := e) fun draws => ?_) ?_
      · rw [hoperation, bind_of_ok hname, htable]
        rfl
      · rintro ⟨-, ⟨table, htable'⟩, -⟩
        cases htable'
    | ok table =>
      obtain ⟨d', sessions', -, hreplace⟩ := h.replace_eq ha hid hname htable hread
      rw [hreplace]
      cases a.tooLarge with
      | true => exact iff_of_false nofun fun hall => nomatch hall.2.2
      | false => exact iff_of_true rfl ⟨rfl, ⟨table, rfl⟩, rfl⟩

theorem resolveSession_replace (h : Saved d sessions s) (ha : a.Succeed) (hid : session.id = s.id) (hu : u.id = s.id)
    (hread : ReadAs V session u)
    (hok : (replace a (some (.document d)) s.id session).2 = .ok ()) :
    resolveSession {} (replace a (some (.document d)) s.id session).1 s.id = .ok u := by
  obtain ⟨hname, ⟨table, htable⟩, hsmall⟩ := (h.replace_iff ha hid hread).1 hok
  obtain ⟨d', sessions', hsaved, hreplace⟩ := h.replace_eq ha hid hname htable hread
  rw [hreplace, if_neg (by rw [hsmall]; exact Bool.false_ne_true), ← hu]
  exact resolveSession_of_mem rfl hsaved.identified hsaved.decoded hsaved.mem

end Replace

end Saved

end CocoaWay.ProfileConfig
