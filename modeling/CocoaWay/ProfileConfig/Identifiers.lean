import CocoaWay.Lib.Fallible
import CocoaWay.ProfileConfig.Document

/-!
# The identifiers of a document

* `rowId`, `Document.ids` : the identifiers its tables have;
* `Identified` : every table has one, no two the same, and all profiles can be read;
* `Inserted` : a table as it was, or with an identifier where it had none;
* `migrate_spec` : what a migration leads to; `migrate_of_identified` : it leaves an identified document alone.
-/

namespace CocoaWay.ProfileConfig
open Lib Control

variable {V : Type}

/-! ## Reading -/

/-- The identifier of a table. -/
def rowId (t : Entries V) : Option ProfileId := (t.get "id").bind Value.asProfileId

def Document.ids (d : Document V) : List ProfileId := d.rows.filterMap rowId

variable {rows : List (Entries V)} {id : ProfileId} {d : Document V} {t : Entries V}

theorem asProfileId_some {v : Value V} (h : v.asProfileId = some id) : v = .string id.toString ∧ id.isSaved = true := by
  unfold Value.asProfileId at h
  obtain ⟨text, htext, hid⟩ := Option.bind_eq_some_iff.1 h
  cases v with
  | string s =>
    obtain rfl := Option.some.inj htext
    cases hf : fromStr s with
    | error e =>
      rw [hf] at hid
      cases hid
    | ok id' =>
      rw [hf] at hid
      obtain rfl := Option.some.inj hid
      obtain ⟨rfl, hsaved⟩ := toString_of_fromStr hf
      exact ⟨rfl, hsaved⟩
  | _ => cases htext

theorem asProfileId_toString (h : id.isSaved = true) : (Value.string id.toString : Value V).asProfileId = some id := by
  show (fromStr id.toString).toOption = some id
  rw [fromStr_toString h]
  rfl

theorem rowId_some (h : rowId t = some id) : t.get "id" = some (.string id.toString) ∧ id.isSaved = true := by
  obtain ⟨v, hv, hid⟩ := Option.bind_eq_some_iff.1 h
  obtain ⟨rfl, hsaved⟩ := asProfileId_some hid
  exact ⟨hv, hsaved⟩

theorem rowId_of_get (hid : id.isSaved = true) (h : t.get "id" = some (.string id.toString)) : rowId t = some id := by
  unfold rowId
  rw [h]
  exact asProfileId_toString (V := V) hid

/-- A profile that can be read: it has the identifier of its table, or none. -/
theorem decodeSession_id {s : ContainerSession} (h : decodeSession t = some s) :
    t.get "id" = none ∧ s.id = .unsaved ∨ rowId t = some s.id ∧ s.id.isSaved = true := by
  obtain ⟨id, hid, h⟩ := Option.bind_eq_some_iff.1 h
  obtain ⟨s', -, h⟩ := Option.bind_eq_some_iff.1 h
  obtain rfl := Option.some.inj h
  unfold optional at hid
  cases hv : t.get "id" with
  | none =>
    rw [hv] at hid
    obtain rfl := Option.some.inj hid
    exact Or.inl ⟨rfl, rfl⟩
  | some v =>
    rw [hv] at hid
    obtain ⟨id', hid', rfl⟩ := Option.map_eq_some_iff.1 hid
    have hrow : rowId t = some id' := by
      unfold rowId
      rw [hv]
      exact hid'
    exact Or.inr ⟨hrow, (asProfileId_some hid').2⟩

theorem decodeFields_congr {t t' : Entries V} (h : ∀ key, key ≠ "id" → t.get key = t'.get key) :
    decodeFields t = decodeFields t' := by
  unfold decodeFields optional required
  simp only [h "name" (by decide), h "image" (by decide), h "runtime" (by decide), h "display" (by decide),
    h "presentation" (by decide), h "profile" (by decide), h "app" (by decide), h "command" (by decide),
    h "socket" (by decide), h "container_socket" (by decide), h "waypipe_path" (by decide),
    h "waypipe_compress" (by decide), h "waypipe_threads" (by decide), h "audio" (by decide),
    h "runtime_args" (by decide), h "mounts" (by decide), h "env" (by decide)]

/-- With an identifier inserted, a table is the same profile under that identifier. -/
theorem decodeSession_set_id {s : ContainerSession} (h : decodeSession t = some s) (hid : id.isSaved = true) :
    decodeSession (t.set "id" (.string id.toString)) = some { s with id := id } := by
  obtain ⟨id', -, h⟩ := Option.bind_eq_some_iff.1 h
  obtain ⟨s', hs', h⟩ := Option.bind_eq_some_iff.1 h
  obtain rfl := Option.some.inj h
  have hfields : decodeFields (t.set "id" (.string id.toString)) = some s' := by
    rw [← hs']
    exact decodeFields_congr fun key hne => Table.get_set_of_ne t _ hne
  unfold decodeSession optional
  rw [Table.get_set_self, hfields]
  simp only [asProfileId_toString hid]
  rfl

theorem decode_rows {sessions : List ContainerSession} (h : decode d = .ok sessions) :
    d.rows.mapM decodeSession = some sessions := by
  unfold decode at h
  unfold Document.rows
  cases hs : d.session with
  | absent =>
    rw [hs] at h
    obtain rfl := Except.ok.inj h
    rfl
  | tables rows =>
    rw [hs] at h
    exact ok_of_getD h
  | array elements =>
    rw [hs] at h
    have hm := ok_of_getD h
    clear h hs
    induction elements generalizing sessions with
    | nil => exact hm
    | cons e elements ih =>
      rw [List.mapM_cons] at hm
      obtain ⟨s, hs, hm⟩ := Option.bind_eq_some_iff.1 hm
      obtain ⟨ss, hss, hm⟩ := Option.bind_eq_some_iff.1 hm
      obtain rfl := Option.some.inj hm
      cases e with
      | value v => cases hs
      | table t =>
        show (t :: elements.filterMap Element.row?).mapM decodeSession = some (s :: ss)
        rw [List.mapM_cons, ih hss]
        have hs : decodeSession t = some s := hs
        rw [hs]
        rfl
  | other v =>
    rw [hs] at h
    cases h

theorem tables_ok (h : tables d = .ok rows) : rows = d.rows := by
  unfold tables at h
  unfold Document.rows
  cases hs : d.session with
  | absent =>
    rw [hs] at h
    exact (Except.ok.inj h).symm
  | tables rows' =>
    rw [hs] at h
    exact (Except.ok.inj h).symm
  | array elements =>
    rw [hs] at h
    dsimp only at h
    split at h
    · cases h
    · have hm := ok_of_getD h
      clear h hs
      induction elements generalizing rows with
      | nil => exact absurd rfl ‹_›
      | cons e elements ih =>
        rw [List.mapM_cons] at hm
        obtain ⟨t, ht, hm⟩ := Option.bind_eq_some_iff.1 hm
        obtain ⟨ts, hts, hm⟩ := Option.bind_eq_some_iff.1 hm
        obtain rfl := Option.some.inj hm
        show t :: ts = (e :: elements).filterMap Element.row?
        rw [List.filterMap_cons_some ht]
        by_cases hne : elements = []
        · subst hne
          obtain rfl := Option.some.inj hts
          rfl
        · rw [ih hne hts]
  | other v =>
    rw [hs] at h
    cases h

theorem decode_tables {sessions : List ContainerSession} {others : Entries V}
    (h : rows.mapM decodeSession = some sessions) :
    decode { session := .tables rows, others := others } = .ok sessions := by
  show ((rows.mapM decodeSession).map Except.ok).getD (.error ConfigError.toml) = _
  rw [h]
  rfl

/-! ## Unique identifiers -/

/-- The identifiers of the saved profiles. -/
def savedIds (sessions : List ContainerSession) : List ProfileId :=
  (sessions.map ContainerSession.id).filter ProfileId.isSaved

/-- The saved identifiers of the profiles are those of the tables. -/
theorem savedIds_eq :
    ∀ {sessions}, rows.mapM decodeSession = some sessions → savedIds sessions = rows.filterMap rowId := by
  induction rows with
  | nil =>
    intro sessions h
    obtain rfl := Option.some.inj h
    rfl
  | cons t rows ih =>
    intro sessions h
    rw [List.mapM_cons] at h
    obtain ⟨s, hs, h⟩ := Option.bind_eq_some_iff.1 h
    obtain ⟨ss, hss, h⟩ := Option.bind_eq_some_iff.1 h
    obtain rfl := Option.some.inj h
    have ih := ih hss
    unfold savedIds at ih ⊢
    rw [List.map_cons]
    rcases decodeSession_id hs with ⟨hnone, hunsaved⟩ | ⟨hrow, hsaved⟩
    · have hrow : rowId t = none := by
        unfold rowId
        rw [hnone]
        rfl
      rw [hunsaved, List.filter_cons_of_neg (by decide), List.filterMap_cons_none hrow, ih]
    · rw [List.filter_cons_of_pos hsaved, List.filterMap_cons_some hrow, ih]

theorem validateIds_ok : ∀ {sessions : List ContainerSession} {seen seen' : List ProfileId},
    validateIds sessions seen = .ok seen' →
      (savedIds sessions).Nodup ∧ (∀ id ∈ savedIds sessions, id ∉ seen) ∧
        ∀ id, id ∈ seen' ↔ id ∈ savedIds sessions ∨ id ∈ seen
  | [], seen, seen', h => by
    obtain rfl := Except.ok.inj h
    exact ⟨List.nodup_nil, nofun, fun id => by simp [savedIds]⟩
  | s :: sessions, seen, seen', h => by
    unfold validateIds at h
    unfold savedIds
    rw [List.map_cons]
    split at h
    · next hsaved =>
      split at h
      · cases h
      · next hnew =>
        obtain ⟨hnodup, hdisjoint, hseen⟩ := validateIds_ok h
        rw [List.filter_cons_of_pos hsaved]
        refine ⟨List.nodup_cons.2 ⟨fun hm => ?_, hnodup⟩, fun id hm => ?_, fun id => ?_⟩
        · exact hdisjoint _ hm List.mem_cons_self
        · rcases List.mem_cons.1 hm with rfl | hm
          · exact hnew
          · exact fun hs => hdisjoint id hm (List.mem_cons_of_mem _ hs)
        · rw [hseen id, List.mem_cons, List.mem_cons]
          exact ⟨fun h => by tauto, fun h => by tauto⟩
    · next hsaved =>
      rw [List.filter_cons_of_neg hsaved]
      exact validateIds_ok h

theorem validateIds_of_nodup : ∀ {sessions : List ContainerSession} {seen : List ProfileId},
    (savedIds sessions).Nodup → (∀ id ∈ savedIds sessions, id ∉ seen) → ∃ seen', validateIds sessions seen = .ok seen'
  | [], seen, _, _ => ⟨seen, rfl⟩
  | s :: sessions, seen, hnodup, hdisjoint => by
    unfold savedIds at hnodup hdisjoint
    rw [List.map_cons] at hnodup hdisjoint
    unfold validateIds
    by_cases hsaved : s.id.isSaved = true
    · rw [List.filter_cons_of_pos hsaved] at hnodup hdisjoint
      obtain ⟨hnew, hnodup⟩ := List.nodup_cons.1 hnodup
      rw [if_pos hsaved, if_neg (hdisjoint _ List.mem_cons_self)]
      refine validateIds_of_nodup hnodup fun id hm hs => ?_
      rcases List.mem_cons.1 hs with rfl | hs
      · exact hnew hm
      · exact hdisjoint id (List.mem_cons_of_mem _ hm) hs
    · rw [List.filter_cons_of_neg hsaved] at hnodup hdisjoint
      rw [if_neg hsaved]
      exact validateIds_of_nodup hnodup hdisjoint

theorem freshId_ok {seen : List ProfileId} :
    ∀ {draws draws' : List (Option ProfileId)} {id}, freshId seen draws = .ok (id, draws') →
      id.isSaved = true ∧ id ∉ seen
  | [], _, _, h => nomatch h
  | none :: _, _, _, h => nomatch h
  | some id' :: draws, _, _, h => by
    unfold freshId at h
    split at h
    · next hnew =>
      cases h
      simpa using hnew
    · exact freshId_ok h

/-! ## Migration -/

/-- A table as it was, or with an identifier where it had none. -/
def Inserted (t t' : Entries V) : Prop :=
  (t.get "id").isSome = true ∧ t' = t ∨
    t.get "id" = none ∧ ∃ id : ProfileId, id.isSaved = true ∧ t' = t.set "id" (.string id.toString)

/-- Every table has an identifier, no two the same, and all profiles can be read. -/
structure Identified (d : Document V) : Prop where
  readable : ∃ sessions, decode d = .ok sessions
  all : ∀ t ∈ d.rows, (rowId t).isSome = true
  unique : d.ids.Nodup

theorem insertIds_ok : ∀ {rows rows' : List (Entries V)} {seen : List ProfileId}
    {draws draws' : List (Option ProfileId)}
    {sessions : List ContainerSession}, rows.mapM decodeSession = some sessions →
    insertIds seen rows draws = .ok (rows', draws') → (∀ id ∈ rows.filterMap rowId, id ∈ seen) →
    (rows.filterMap rowId).Nodup →
    List.Forall₂ Inserted rows rows' ∧ (rows'.filterMap rowId).Nodup ∧
      (∀ id ∈ rows'.filterMap rowId, id ∈ rows.filterMap rowId ∨ id ∉ seen) ∧
      (∀ t ∈ rows', (rowId t).isSome = true) ∧ ∃ sessions', rows'.mapM decodeSession = some sessions'
  | [], rows', seen, draws, draws', sessions, _, h, _, _ => by
    obtain ⟨rfl, -⟩ := Prod.mk.inj (Except.ok.inj h)
    exact ⟨.nil, List.nodup_nil, nofun, nofun, [], rfl⟩
  | t :: rows, rows', seen, draws, draws', sessions, hd, h, hseen, hnodup => by
    rw [List.mapM_cons] at hd
    obtain ⟨s, hs, hd⟩ := Option.bind_eq_some_iff.1 hd
    obtain ⟨ss, hss, -⟩ := Option.bind_eq_some_iff.1 hd
    unfold insertIds at h
    rcases decodeSession_id hs with ⟨hnone, -⟩ | ⟨hrow, -⟩
    · -- a fresh identifier, seen from here on
      have hrow : rowId t = none := by
        unfold rowId
        rw [hnone]
        rfl
      rw [List.filterMap_cons_none hrow] at hseen hnodup ⊢
      rw [hnone] at h
      obtain ⟨⟨id, draws₁⟩, hfresh, h⟩ := ok_of_bind h
      obtain ⟨⟨rows₁, draws₂⟩, hins, h⟩ := ok_of_bind h
      obtain ⟨rfl, -⟩ := Prod.mk.inj (Except.ok.inj h)
      obtain ⟨hsaved, hnew⟩ := freshId_ok hfresh
      obtain ⟨hall, hnodup', hfrom, hids, ss', hss'⟩ :=
        insertIds_ok hss hins (fun id hm => List.mem_cons_of_mem _ (hseen id hm)) hnodup
      have hrow' : rowId (t.set "id" (.string id.toString)) = some id :=
        rowId_of_get hsaved (Table.get_set_self _ _ _)
      rw [List.filterMap_cons_some hrow']
      refine ⟨.cons (Or.inr ⟨hnone, id, hsaved, rfl⟩) hall, List.nodup_cons.2 ⟨fun hm => ?_, hnodup'⟩,
        fun id' hm => ?_, fun t' ht => ?_, ?_⟩
      · rcases hfrom id hm with hold | hnew'
        · exact hnew (hseen id hold)
        · exact hnew' List.mem_cons_self
      · rcases List.mem_cons.1 hm with rfl | hm
        · exact Or.inr hnew
        · rcases hfrom id' hm with hold | hnew'
          · exact Or.inl hold
          · exact Or.inr fun hs => hnew' (List.mem_cons_of_mem _ hs)
      · rcases List.mem_cons.1 ht with rfl | ht
        · rw [hrow']
          rfl
        · exact hids t' ht
      · refine ⟨{ s with id := id } :: ss', ?_⟩
        rw [List.mapM_cons, decodeSession_set_id hs hsaved, hss']
        rfl
    · -- the identifier stays
      rw [List.filterMap_cons_some hrow] at hseen hnodup ⊢
      obtain ⟨hnotin, hnodup⟩ := List.nodup_cons.1 hnodup
      have hget : (t.get "id").isSome = true := by
        rw [(rowId_some hrow).1]
        rfl
      rw [if_pos hget] at h
      obtain ⟨⟨rows₁, draws₂⟩, hins, h⟩ := ok_of_bind h
      obtain ⟨rfl, -⟩ := Prod.mk.inj (Except.ok.inj h)
      obtain ⟨hall, hnodup', hfrom, hids, ss', hss'⟩ :=
        insertIds_ok hss hins (fun id hm => hseen id (List.mem_cons_of_mem _ hm)) hnodup
      rw [List.filterMap_cons_some hrow]
      refine ⟨.cons (Or.inl ⟨hget, rfl⟩) hall, List.nodup_cons.2 ⟨fun hm => ?_, hnodup'⟩,
        fun id' hm => ?_, fun t' ht => ?_, ?_⟩
      · rcases hfrom _ hm with hold | hnew'
        · exact hnotin hold
        · exact hnew' (hseen _ List.mem_cons_self)
      · rcases List.mem_cons.1 hm with rfl | hm
        · exact Or.inl List.mem_cons_self
        · rcases hfrom id' hm with hold | hnew'
          · exact Or.inl (List.mem_cons_of_mem _ hold)
          · exact Or.inr hnew'
      · rcases List.mem_cons.1 ht with rfl | ht
        · rw [hrow]
          rfl
        · exact hids t' ht
      · refine ⟨s :: ss', ?_⟩
        rw [List.mapM_cons, hs, hss']
        rfl

/-- With all profiles saved, every table has an identifier. -/
theorem rowId_of_saved :
    ∀ {sessions}, rows.mapM decodeSession = some sessions → (sessions.all fun s => s.id.isSaved) = true →
      ∀ t ∈ rows, (rowId t).isSome = true := by
  induction rows with
  | nil => exact fun _ _ => nofun
  | cons t rows ih =>
    intro sessions h hall
    rw [List.mapM_cons] at h
    obtain ⟨s, hs, h⟩ := Option.bind_eq_some_iff.1 h
    obtain ⟨ss, hss, h⟩ := Option.bind_eq_some_iff.1 h
    obtain rfl := Option.some.inj h
    rw [List.all_cons, Bool.and_eq_true] at hall
    intro t' ht
    rcases List.mem_cons.1 ht with rfl | ht
    · rcases decodeSession_id hs with ⟨-, hunsaved⟩ | ⟨hrow, -⟩
      · rw [hunsaved] at hall
        exact absurd hall.1 (by decide)
      · rw [hrow]
        rfl
    · exact ih hss hall.2 t' ht

theorem saved_of_rowId :
    ∀ {sessions}, rows.mapM decodeSession = some sessions → (∀ t ∈ rows, (t.get "id").isSome = true) →
      (sessions.all fun s => s.id.isSaved) = true := by
  induction rows with
  | nil =>
    intro sessions h _
    obtain rfl := Option.some.inj h
    rfl
  | cons t rows ih =>
    intro sessions h hall
    rw [List.mapM_cons] at h
    obtain ⟨s, hs, h⟩ := Option.bind_eq_some_iff.1 h
    obtain ⟨ss, hss, h⟩ := Option.bind_eq_some_iff.1 h
    obtain rfl := Option.some.inj h
    rw [List.all_cons, ih hss fun t' ht => hall t' (List.mem_cons_of_mem _ ht), Bool.and_true]
    rcases decodeSession_id hs with ⟨hnone, -⟩ | ⟨-, hsaved⟩
    · have hsome := hall t List.mem_cons_self
      rw [hnone] at hsome
      cases hsome
    · exact hsaved

/-- A migration inserts the identifiers that are missing, and nothing else. -/
theorem migrate_spec {d d' : Document V} {draws draws' : List (Option ProfileId)}
    (h : migrate d draws = .ok (d', draws')) :
    d'.others = d.others ∧ List.Forall₂ Inserted d.rows d'.rows ∧ Identified d' := by
  obtain ⟨sessions, hdecode, h⟩ := ok_of_bind h
  obtain ⟨seen, hvalid, h⟩ := ok_of_bind h
  have hrows := decode_rows hdecode
  have hids := savedIds_eq hrows
  obtain ⟨hnodup, -, hseen⟩ := validateIds_ok hvalid
  rw [hids] at hnodup hseen
  dsimp only at h
  split at h
  · next hsaved =>
    obtain ⟨rfl, -⟩ := Prod.mk.inj (Except.ok.inj h)
    have hall := rowId_of_saved hrows hsaved
    refine ⟨rfl, ?_, ⟨sessions, hdecode⟩, hall, hnodup⟩
    rw [List.forall₂_same]
    intro t ht
    obtain ⟨id, hid⟩ := Option.isSome_iff_exists.1 (hall t ht)
    left
    rw [(rowId_some hid).1]
    exact ⟨rfl, rfl⟩
  · obtain ⟨rows, htables, h⟩ := ok_of_bind h
    obtain ⟨⟨rows', draws₁⟩, hins, h⟩ := ok_of_bind h
    obtain ⟨rfl, -⟩ := Prod.mk.inj (Except.ok.inj h)
    obtain rfl := tables_ok htables
    obtain ⟨hall, hnodup', -, hids', sessions', hsessions⟩ :=
      insertIds_ok hrows hins (fun id hm => (hseen id).2 (Or.inl hm)) hnodup
    exact ⟨rfl, hall, ⟨sessions', decode_tables hsessions⟩, hids', hnodup'⟩

/-- With an identifier in every table there is nothing to migrate. -/
theorem migrate_eq_self {d d' : Document V} {draws draws' : List (Option ProfileId)}
    (h : migrate d draws = .ok (d', draws')) (hall : ∀ t ∈ d.rows, (t.get "id").isSome = true) : d' = d := by
  obtain ⟨sessions, hdecode, h⟩ := ok_of_bind h
  obtain ⟨seen, -, h⟩ := ok_of_bind h
  rw [saved_of_rowId (decode_rows hdecode) hall, if_pos rfl] at h
  exact (Prod.mk.inj (Except.ok.inj h)).1.symm

theorem Identified.get_id (h : Identified d) : ∀ t ∈ d.rows, (t.get "id").isSome = true := by
  intro t ht
  obtain ⟨id, hid⟩ := Option.isSome_iff_exists.1 (h.all t ht)
  rw [(rowId_some hid).1]
  rfl

/-- A second migration changes nothing and draws nothing. -/
theorem migrate_of_identified (h : Identified d) (draws : List (Option ProfileId)) :
    migrate d draws = .ok (d, draws) := by
  obtain ⟨sessions, hdecode⟩ := h.readable
  have hrows := decode_rows hdecode
  have hnodup : (savedIds sessions).Nodup := by
    rw [savedIds_eq hrows]
    exact h.unique
  obtain ⟨seen, hvalid⟩ := validateIds_of_nodup hnodup (fun _ _ => List.not_mem_nil)
  have hsaved := saved_of_rowId hrows h.get_id
  unfold migrate
  rw [hdecode]
  show (validateIds sessions [] >>= _) = _
  rw [hvalid]
  show (if _ then _ else _) = _
  rw [if_pos hsaved]

end CocoaWay.ProfileConfig
