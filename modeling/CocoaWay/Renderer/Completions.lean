import CocoaWay.Renderer.Accounts

/-!
# Frames, completions and the other renderers

What goes on beside the uploads of a renderer keeps its accounts and charges it no more:

* `Accounts.begin`, `Accounts.startCompletion`, `Accounts.publishCompletion`, `Accounts.finishCompletion` : frames;
* `Accounts.other` : the other renderers' use of the budget;
* `Accounts.readCurrent` : a frame reads the current version of a surface.
-/

namespace CocoaWay.Renderer
open Lib TextureLifetime Pixels
open RenderBudget (Reservation TextureBudget wrappingAdd wrappingSub)

variable {κ σ : Type} [DecidableEq κ] {b : TextureBudget} {client : κ} {w w' : World κ σ} {i : Nat} {f f' : Frame κ}

/-! ## Frames -/

omit [DecidableEq κ] in
theorem frames_perm (h : w.frames.get i = some f) : w.frames.values.Perm (f :: (w.frames.remove i).values) :=
  Table.values_perm_remove h

variable {r : Reservation κ} {s : RenderBudget.State κ}

omit [DecidableEq κ] in
theorem mem_reading_iff : r ∈ w.reading ↔ ∃ f ∈ w.frames.values, r ∈ f.reservations :=
  List.mem_flatMap

omit [DecidableEq κ] in
theorem mem_late_iff : r ∈ w.late ↔ ∃ f ∈ w.frames.values, r ∈ f.taken := List.mem_flatMap

omit [DecidableEq κ] in
theorem mem_frames_set {g : Frame κ} (hg : g ∈ (w.frames.set i f').values) : g = f' ∨ g ∈ w.frames.values := by
  obtain ⟨j, hj⟩ := Table.mem_values_iff.1 hg
  rw [Table.get_set] at hj
  split at hj
  · exact Or.inl (Option.some.inj hj).symm
  · exact Or.inr (Table.mem_values_iff.2 ⟨j, hj⟩)

/-- One reader less for each frame that lists the reservation. -/
theorem readersOf_set (h : w.frames.get i = some f) (r : Reservation κ) :
    ({ w with frames := w.frames.set i f' } : World κ σ).readersOf r + (if r ∈ f.reservations then 1 else 0) =
      w.readersOf r + if r ∈ f'.reservations then 1 else 0 := by
  unfold World.readersOf
  rw [total_perm _ (frames_perm h), Table.values_set, total_cons, total_cons]
  omega

theorem readersOf_le (r : Reservation κ) : w.readersOf r ≤ w.frames.values.length := by
  have hle : total (fun f : Frame κ => if r ∈ f.reservations then 1 else 0) w.frames.values ≤
      total (fun _ => 1) w.frames.values := total_mono fun f _ => by split <;> omega
  have hlen : total (fun _ : Frame κ => 1) w.frames.values = w.frames.values.length := by simp [total]
  exact hle.trans_eq hlen

theorem readersOf_eq_zero : w.readersOf r = 0 ↔ r ∉ w.reading := by
  unfold World.readersOf World.reading
  induction w.frames.values with
  | nil => simp
  | cons f frames ih =>
    rw [total_cons, List.flatMap_cons, List.mem_append, not_or, ← ih, Nat.add_eq_zero_iff]
    simp

omit [DecidableEq κ] in
theorem length_frames_set (h : w.frames.get i = some f) :
    (w.frames.set i f').values.length = w.frames.values.length := by
  rw [Table.values_set, (frames_perm h).length_eq, List.length_cons, List.length_cons]

/-- A frame changes, and with it the accounts of what it reads and holds. -/
theorem Accounts.setFrame (h : Accounts b client w) (hf : w.frames.get i = some f) (hok : FrameOk f')
    (hrefs : ∀ r ∈ f'.reservations ++ f'.taken, r ∈ w.references) {budget : RenderBudget.State κ}
    (hinv : RenderBudget.Inv b budget) (hlive : budget.live = w.budget.live) (hnext : budget.nextId = w.budget.nextId)
    (hreaders : ∀ r ∈ w.budget.live, r.client = client →
      (budget.cells r.id).readers + (if r ∈ f.reservations then 1 else 0) =
        (w.budget.cells r.id).readers + if r ∈ f'.reservations then 1 else 0) :
    Accounts b client { w with frames := w.frames.set i f', budget } := by
  have hsub : ∀ g ∈ (w.frames.set i f').values, ∀ r ∈ g.reservations ++ g.taken, r ∈ w.references := by
    intro g hg r hr
    rcases mem_frames_set hg with rfl | hg
    · exact hrefs r hr
    · rcases List.mem_append.1 hr with hr | hr
      · exact List.mem_append_left _ (List.mem_append_right _ (mem_reading_iff.2 ⟨g, hg, hr⟩))
      · exact List.mem_append_right _ (mem_late_iff.2 ⟨g, hg, hr⟩)
  refine ⟨hinv, ?_, ?_, fun r hr => ?_, h.owned, h.caches, ?_, fun g hg => ?_, fun j g hj => ?_, fun r hr hc => ?_⟩
  · rw [hlive]
    exact h.ids
  · rw [hlive, hnext]
    exact h.ids_lt
  · rw [hlive]
    apply h.live
    rcases List.mem_append.1 hr with hr | hr
    · rcases List.mem_append.1 hr with hr | hr
      · exact List.mem_append_left _ (List.mem_append_left _ hr)
      · obtain ⟨g, hg, hr⟩ := mem_reading_iff.1 hr
        exact hsub g hg r (List.mem_append_left _ hr)
    · obtain ⟨g, hg, hr⟩ := mem_late_iff.1 hr
      exact hsub g hg r (List.mem_append_right _ hr)
  · exact (length_frames_set hf).trans_le h.frames_le
  · rcases mem_frames_set hg with rfl | hg
    · exact hok
    · exact h.frames g hg
  · by_cases hij : j = i
    · exact hij ▸ h.frames_lt i f hf
    · rw [Table.get_set_of_ne _ _ hij] at hj
      exact h.frames_lt j g hj
  · rw [hlive] at hr
    have hcell := hreaders r hr hc
    have hset : ({ w with frames := w.frames.set i f' } :
      World κ σ).readersOf r + (if r ∈ f.reservations then 1 else 0) =
        w.readersOf r + if r ∈ f'.reservations then 1 else 0 := readersOf_set hf r
    have hold := h.readers r hr hc
    show (budget.cells r.id).readers = ({ w with frames := w.frames.set i f' } : World κ σ).readersOf r
    omega

/-! ## Completions -/

theorem foldl_endRead (h : RenderBudget.Inv b s) {ids : List Nat} (hn : ids.Nodup) :
    RenderBudget.Inv b (ids.foldl RenderBudget.endRead s) ∧ (ids.foldl RenderBudget.endRead s).live = s.live ∧
      (ids.foldl RenderBudget.endRead s).nextId = s.nextId ∧
      ∀ id, ((ids.foldl RenderBudget.endRead s).cells id).readers =
        if id ∈ ids then wrappingSub (s.cells id).readers 1 else (s.cells id).readers := by
  induction ids generalizing s with
  | nil => exact ⟨h, rfl, rfl, fun id => by simp⟩
  | cons id ids ih =>
    obtain ⟨hid, hn⟩ := List.nodup_cons.1 hn
    obtain ⟨hinv, hlive, hnext, hreaders⟩ := ih (h.setCell id (h.cells id).endRead) hn
    refine ⟨hinv, hlive, hnext, fun id' => (hreaders id').trans ?_⟩
    by_cases he : id' = id
    · subst he
      simp [hid, RenderBudget.State.setCell]
    · simp [he, RenderBudget.State.setCell]

/-- Counting down by one is exact: the frame is one of the readers. -/
theorem wrappingSub_readers (h : Accounts b client w) (hf : w.frames.get i = some f) (hr : r ∈ f.reservations) :
    wrappingSub (w.budget.cells r.id).readers 1 + 1 = (w.budget.cells r.id).readers := by
  have hmem : f ∈ w.frames.values := Table.mem_values_iff.2 ⟨i, hf⟩
  obtain ⟨hlive, hc⟩ := h.live r (List.mem_append_left _ (List.mem_append_right _ (mem_reading_iff.2 ⟨f, hmem, hr⟩)))
  have hpos : w.readersOf r ≠ 0 := fun hz => readersOf_eq_zero.1 hz (mem_reading_iff.2 ⟨f, hmem, hr⟩)
  rw [h.readers r hlive hc, RenderBudget.wrappingSub_eq (Nat.pos_of_ne_zero hpos)]
  omega

theorem Accounts.startCompletion (h : Accounts b client w) (hs : startCompletion w i = some w') :
    Accounts b client w' ∧ w'.budget.live = w.budget.live ∧ w'.caches = w.caches ∧ w'.token = w.token ∧
      w'.done = w.done ∧ (∀ r ∈ w'.reading, r ∈ w.reading) ∧ ∀ r, r ∈ w.references → r ∈ w'.references := by
  simp only [Renderer.startCompletion, Option.bind_eq_bind, Option.bind_eq_some_iff] at hs
  obtain ⟨f, hf, hs⟩ := hs
  split at hs
  · cases hs
  next hstarted =>
  obtain rfl := Option.some.inj hs
  have hmem : f ∈ w.frames.values := Table.mem_values_iff.2 ⟨i, hf⟩
  have hok := h.frames f hmem
  have hread : ∀ r ∈ f.reservations, r ∈ w.references := fun r hr =>
    List.mem_append_left _ (List.mem_append_right _ (mem_reading_iff.2 ⟨f, hmem, hr⟩))
  have hinj : ∀ r ∈ w.budget.live, r.id ∈ f.reservations.map (·.id) ↔ r ∈ f.reservations := by
    intro r hr
    refine ⟨fun hid => ?_, fun hr => List.mem_map_of_mem hr⟩
    obtain ⟨r', hr', he⟩ := List.mem_map.1 hid
    exact List.inj_on_of_nodup_map h.ids (h.live r' (hread r' hr')).1 hr he ▸ hr'
  have hids : (f.reservations.map (·.id)).Nodup :=
    hok.nodup.map_on fun r hr r' hr' he =>
      List.inj_on_of_nodup_map h.ids (h.live r (hread r hr)).1 (h.live r' (hread r' hr')).1 he
  obtain ⟨hinv, hlive, hnext, hreaders⟩ := foldl_endRead h.budget hids
  refine ⟨?_, hlive, rfl, rfl, ?_, fun r hr => ?_, fun r hr => ?_⟩
  · refine h.setFrame hf ⟨List.nodup_nil, fun _ => rfl, fun _ => rfl, fun hs => by cases hs⟩ ?_ hinv hlive hnext
      fun r hr hc => ?_
    · rw [List.nil_append]
      exact hread
    · rw [hreaders, if_neg List.not_mem_nil]
      by_cases hrf : r ∈ f.reservations
      · rw [if_pos ((hinj r hr).2 hrf), if_pos hrf]
        exact wrappingSub_readers h hf hrf
      · rw [if_neg fun hid => hrf ((hinj r hr).1 hid), if_neg hrf]
  · funext j
    unfold World.done
    by_cases hij : j = i
    · have hcompleted : f.completed = false := Bool.eq_false_iff.2 fun hc => hstarted (hok.completed hc)
      subst hij
      simp [hf, hcompleted]
    · simp only [Table.get_set_of_ne _ _ hij]
  · obtain ⟨g, hg, hr⟩ := mem_reading_iff.1 hr
    rcases mem_frames_set hg with rfl | hg
    · cases hr
    · exact mem_reading_iff.2 ⟨g, hg, hr⟩
  · -- What the frame read is now what its completion holds.
    unfold World.references at hr ⊢
    simp only [List.mem_append, mem_reading_iff, mem_late_iff] at hr ⊢
    have hperm := fun g => (frames_perm hf).mem_iff (a := g)
    rw [Table.values_set]
    rcases hr with (hr | ⟨g, hg, hr⟩) | ⟨g, hg, hr⟩
    · exact Or.inl (Or.inl hr)
    · rcases List.mem_cons.1 ((hperm g).1 hg) with rfl | hg
      · exact Or.inr ⟨_, List.mem_cons_self, hr⟩
      · exact Or.inl (Or.inr ⟨g, List.mem_cons_of_mem _ hg, hr⟩)
    · rcases List.mem_cons.1 ((hperm g).1 hg) with rfl | hg
      · rw [hok.taken (by simpa using hstarted)] at hr
        cases hr
      · exact Or.inr ⟨g, List.mem_cons_of_mem _ hg, hr⟩

/-- The references of a frame that only changes what it says of its completion. -/
theorem Accounts.publishCompletion (h : Accounts b client w) (hs : publishCompletion w i = some w') :
    Accounts b client w' ∧ w'.budget = w.budget ∧ w'.caches = w.caches ∧ w'.token = w.token ∧
      (∀ j, w.done j = true → w'.done j = true) ∧ (∀ r ∈ w'.reading, r ∈ w.reading) ∧
      ∀ r, r ∈ w.references → r ∈ w'.references := by
  simp only [Renderer.publishCompletion, Option.bind_eq_bind, Option.bind_eq_some_iff] at hs
  obtain ⟨f, hf, hs⟩ := hs
  split at hs
  · next hstarted =>
    obtain rfl := Option.some.inj hs
    simp only [Bool.and_eq_true, Bool.not_eq_true'] at hstarted
    have hmem : f ∈ w.frames.values := Table.mem_values_iff.2 ⟨i, hf⟩
    have hok := h.frames f hmem
    have hreading : ∀ r, r ∈ (w.frames.set i { f with completed := true }).values.flatMap Frame.reservations ↔
        r ∈ w.reading := by
      intro r
      rw [Table.values_set]
      exact ((frames_perm hf).flatMap_right Frame.reservations).symm.mem_iff
    have hlate : ∀ r, r ∈ (w.frames.set i { f with completed := true }).values.flatMap Frame.taken ↔ r ∈ w.late := by
      intro r
      rw [Table.values_set]
      exact ((frames_perm hf).flatMap_right Frame.taken).symm.mem_iff
    refine ⟨?_, rfl, rfl, rfl, fun j hj => ?_, fun r hr => (hreading r).1 hr, fun r hr => ?_⟩
    · have hok' : FrameOk { f with completed := true } := ⟨hok.nodup, hok.started, fun _ => hstarted.1, hok.taken⟩
      refine h.setFrame hf hok' (fun r hr => ?_) h.budget rfl rfl fun _ _ _ => rfl
      rcases List.mem_append.1 hr with hr | hr
      · exact List.mem_append_left _ (List.mem_append_right _ (mem_reading_iff.2 ⟨f, hmem, hr⟩))
      · exact List.mem_append_right _ (mem_late_iff.2 ⟨f, hmem, hr⟩)
    · unfold World.done at hj ⊢
      rw [Table.get_set]
      split
      · rfl
      · exact hj
    · unfold World.references at hr ⊢
      simp only [List.mem_append] at hr ⊢
      rcases hr with (hr | hr) | hr
      · exact Or.inl (Or.inl hr)
      · exact Or.inl (Or.inr ((hreading r).2 hr))
      · exact Or.inr ((hlate r).2 hr)
  · cases hs

theorem Accounts.removeFrame (h : Accounts b client w) (hf : w.frames.get i = some f) (hc : f.completed = true) :
    Accounts b client { w with frames := w.frames.remove i } ∧
      ({ w with frames := w.frames.remove i } : World κ σ).done = w.done ∧
      ∀ r, r ∈ ({ w with frames := w.frames.remove i } : World κ σ).reading ↔ r ∈ w.reading := by
  have hok := h.frames f (Table.mem_values_iff.2 ⟨i, hf⟩)
  have hnone := hok.started (hok.completed hc)
  have hperm := frames_perm hf
  have hsub : ∀ g ∈ (w.frames.remove i).values, g ∈ w.frames.values := fun g hg =>
    hperm.mem_iff.2 (List.mem_cons_of_mem f hg)
  have hreading : ∀ r, r ∈ (w.frames.remove i).values.flatMap Frame.reservations ↔ r ∈ w.reading := by
    intro r
    have hmem := (hperm.flatMap_right Frame.reservations).mem_iff (a := r)
    rw [List.flatMap_cons, hnone, List.nil_append] at hmem
    exact hmem.symm
  refine ⟨⟨h.budget, h.ids, h.ids_lt, fun r hr => h.live r ?_, h.owned, h.caches, ?_,
    fun g hg => h.frames g (hsub g hg),
    fun j g hj => ?_, fun r hr hcl => ?_⟩, ?_, hreading⟩
  · unfold World.references at hr ⊢
    simp only [List.mem_append] at hr ⊢
    rcases hr with (hr | hr) | hr
    · exact Or.inl (Or.inl hr)
    · exact Or.inl (Or.inr ((hreading r).1 hr))
    · obtain ⟨g, hg, hr⟩ := List.mem_flatMap.1 hr
      exact Or.inr (mem_late_iff.2 ⟨g, hsub g hg, hr⟩)
  · have hlen := hperm.length_eq
    rw [List.length_cons] at hlen
    show (w.frames.remove i).values.length ≤ maxFrames
    have hle := h.frames_le
    omega
  · have hj : (w.frames.remove i).get j = some g := hj
    rw [Table.get_remove] at hj
    split at hj
    · cases hj
    · exact h.frames_lt j g hj
  · rw [h.readers r hr hcl]
    unfold World.readersOf
    rw [total_perm _ hperm, total_cons, hnone, if_neg List.not_mem_nil, Nat.zero_add]
  · funext j
    unfold World.done
    rw [Table.get_remove]
    split
    · next hij => simp [hij, hf, hc]
    · rfl

theorem Accounts.begin (h : Accounts b client w) (hlt : w.frames.values.length < maxFrames) :
    Accounts b client { w with frames := w.frames.set w.nextFrame .new, nextFrame := w.nextFrame + 1 } ∧
      ∀ r, r ∈ ({ w with frames := w.frames.set w.nextFrame .new, nextFrame := w.nextFrame + 1 } :
        World κ σ).references ↔
        r ∈ w.references := by
  have hfresh : w.frames.get w.nextFrame = none := by
    cases hg : w.frames.get w.nextFrame with
    | none => rfl
    | some f => exact absurd (h.frames_lt _ f hg) (Nat.lt_irrefl _)
  have hvalues : (w.frames.set w.nextFrame Frame.new).values = .new :: w.frames.values :=
    Table.values_set_of_none hfresh _
  have hrefs : ∀ r, r ∈ ({ w with frames := w.frames.set w.nextFrame .new, nextFrame := w.nextFrame + 1 } :
      World κ σ).references ↔ r ∈ w.references := by
    intro r
    unfold World.references World.reading World.late
    rw [hvalues]
    rfl
  refine ⟨⟨h.budget, h.ids, h.ids_lt, fun r hr => h.live r ((hrefs r).1 hr), h.owned, h.caches, ?_, fun f hf => ?_,
    fun j f hj => ?_, fun r hr hc => ?_⟩, hrefs⟩
  · rw [hvalues]
    exact hlt
  · rw [hvalues] at hf
    rcases List.mem_cons.1 hf with rfl | hf
    · exact FrameOk.new
    · exact h.frames f hf
  · have hj : (w.frames.set w.nextFrame Frame.new).get j = some f := hj
    rw [Table.get_set] at hj
    split at hj
    · next hij => exact hij ▸ Nat.lt_succ_self _
    · exact Nat.lt_succ_of_lt (h.frames_lt j f hj)
  · rw [h.readers r hr hc]
    unfold World.readersOf
    rw [hvalues, total_cons, Frame.new, if_neg List.not_mem_nil, Nat.zero_add]

/-! ## The other renderers -/

/-- What others do with the budget leaves the reservations of this client as they are. -/
structure Foreign (client : κ) (s s' : RenderBudget.State κ) : Prop where
  ids : (s.live.map Reservation.id).Nodup → (∀ r ∈ s.live, r.id < s.nextId) →
    (s'.live.map Reservation.id).Nodup ∧ ∀ r ∈ s'.live, r.id < s'.nextId
  live : s'.live.filter (fun r => r.client = client) = s.live.filter fun r => r.client = client
  readers : (s.live.map Reservation.id).Nodup → (∀ r ∈ s.live, r.id < s.nextId) →
    ∀ r ∈ s.live, r.client = client → (s'.cells r.id).readers = (s.cells r.id).readers

theorem Foreign.of_same {s s' : RenderBudget.State κ} (hlive : s'.live = s.live) (hnext : s'.nextId = s.nextId)
    (hcells : ∀ r ∈ s.live, r.client = client → (s.live.map Reservation.id).Nodup →
      (s'.cells r.id).readers = (s.cells r.id).readers) : Foreign client s s' := by
  refine ⟨fun hn hlt => ?_, by rw [hlive], fun hn _ r hr hc => hcells r hr hc hn⟩
  rw [hlive, hnext]
  exact ⟨hn, hlt⟩

omit [DecidableEq κ] in
/-- Another client's reservation has another cell. -/
theorem cell_of_foreign {r r' : Reservation κ} (hr : r ∈ s.live) (hr' : r' ∈ s.live)
    (hc : r.client = client) (hc' : r'.client ≠ client) (hn : (s.live.map Reservation.id).Nodup) : r.id ≠ r'.id := by
  intro he
  have hrr := List.inj_on_of_nodup_map hn hr hr' he
  exact hc' (hrr ▸ hc)

theorem Foreign.setCell (hr : r ∈ s.live) (hc : r.client ≠ client)
    (cell : RenderBudget.Cell) : Foreign client s (s.setCell r.id cell) := by
  refine Foreign.of_same rfl rfl fun r' hr' hc' hn => ?_
  have hne := cell_of_foreign hr' hr hc' hc hn
  simp [RenderBudget.State.setCell, Function.update_of_ne hne]

theorem Foreign.wait (s : RenderBudget.State κ) (wake : κ) : Foreign client s (RenderBudget.wait s wake) := by
  refine Foreign.of_same (RenderBudget.sameCharges_wait s wake).live ?_ fun r _ _ _ => by rw [RenderBudget.wait_cells]
  unfold RenderBudget.wait
  split <;> rfl

theorem Foreign.notify (s : RenderBudget.State κ) (wake : κ) : Foreign client s (RenderBudget.notify s wake) := by
  refine Foreign.of_same (RenderBudget.sameCharges_notify s wake).live ?_ fun r _ _ _ => by rw [RenderBudget.notify_cells]
  unfold RenderBudget.notify
  split <;> rfl

theorem Foreign.charge {wake : κ} (hw : wake ≠ client) (bytes : Nat)
    (credit : Option (Reservation κ)) : Foreign client s (RenderBudget.charge b s bytes wake credit).2 := by
  refine ⟨fun hn hlt => ⟨?_, fun r hr => ?_⟩, ?_, fun hn hlt r hr hc => ?_⟩
  · refine List.nodup_cons.2 ⟨fun hm => ?_, hn⟩
    obtain ⟨r, hr, he⟩ := List.mem_map.1 hm
    exact absurd (hlt r hr) (by rw [he]; exact Nat.lt_irrefl _)
  · rcases List.mem_cons.1 hr with rfl | hr
    · exact Nat.lt_succ_self _
    · exact Nat.lt_succ_of_lt (hlt r hr)
  · exact List.filter_cons_of_neg (by simpa [RenderBudget.charge] using hw)
  · have hne : r.id ≠ s.nextId := (hlt r hr).ne
    simp [RenderBudget.charge, Function.update_of_ne hne]

theorem Foreign.drop (hc : r.client ≠ client) : Foreign client s (RenderBudget.drop s r) := by
  have hsub : (s.live.erase r).Sublist s.live := List.erase_sublist
  refine ⟨fun hn hlt => ⟨hn.sublist (hsub.map _), fun r' hr' => hlt r' (hsub.subset hr')⟩, ?_, fun _ _ _ _ _ => rfl⟩
  show (s.live.erase r).filter _ = _
  rw [← List.erase_filter, List.erase_of_not_mem]
  intro hm
  exact hc (by simpa using (List.mem_filter.1 hm).2)

theorem foreign_step {s s' : RenderBudget.State κ} {event : RenderBudget.Event κ} (hf : foreign client event = true)
    (hs : RenderBudget.step b s event = some s') : Foreign client s s' := by
  cases event with
  | reserve bytes wake idle =>
    simp only [RenderBudget.step, Option.ite_none_right_eq_some, Option.some.injEq] at hs
    obtain ⟨-, rfl⟩ := hs
    rcases RenderBudget.tryReserveReplacing_cases b s bytes wake idle with he | he | ⟨-, -, he⟩ <;> rw [he]
    · exact Foreign.of_same rfl rfl fun _ _ _ _ => rfl
    · exact Foreign.wait s wake
    · exact Foreign.charge (of_decide_eq_true hf) bytes _
  | drop r =>
    simp only [RenderBudget.step, Option.ite_none_right_eq_some, Option.some.injEq] at hs
    exact hs.2 ▸ Foreign.drop (of_decide_eq_true hf)
  | beginRead r =>
    simp only [RenderBudget.step, Option.ite_none_right_eq_some, Option.some.injEq] at hs
    exact hs.2 ▸ Foreign.setCell hs.1 (of_decide_eq_true hf) _
  | endRead r =>
    simp only [RenderBudget.step, Option.ite_none_right_eq_some, Option.some.injEq] at hs
    exact hs.2 ▸ Foreign.setCell hs.1 (of_decide_eq_true hf) _
  | setRetired r retired =>
    simp only [RenderBudget.step, Option.ite_none_right_eq_some, Option.some.injEq] at hs
    exact hs.2 ▸ Foreign.setCell hs.1 (of_decide_eq_true hf) _
  | defer wake =>
    cases hs
    exact Foreign.wait s wake
  | wakeWaiters =>
    cases hs
    exact Foreign.of_same rfl rfl fun _ _ _ _ => rfl
  | notify =>
    simp only [RenderBudget.step] at hs
    cases hn : s.notifying with
    | nil => simp [hn] at hs
    | cons wake rest =>
      simp only [hn, Option.some.injEq] at hs
      subst hs
      have h : Foreign client { s with notifying := rest } _ := Foreign.notify _ wake
      exact ⟨h.ids, h.live, h.readers⟩

theorem Foreign.mem_iff {s s' : RenderBudget.State κ} (h : Foreign client s s') (hc : r.client = client) :
    r ∈ s'.live ↔ r ∈ s.live := by
  have hm := congrArg (fun l => r ∈ l) h.live
  simpa [List.mem_filter, hc] using hm

theorem Accounts.other (h : Accounts b client w) {budget : RenderBudget.State κ} (hinv : RenderBudget.Inv b budget)
    (hf : Foreign client w.budget budget) : Accounts b client { w with budget } ∧
      ({ w with budget } : World κ σ).charged client = w.charged client := by
  obtain ⟨hids, hlt⟩ := hf.ids h.ids h.ids_lt
  refine ⟨⟨hinv, hids, hlt, fun r hr => ?_, h.owned, h.caches, h.frames_le, h.frames, h.frames_lt, fun r hr hc => ?_⟩, ?_⟩
  · obtain ⟨hl, hc⟩ := h.live r hr
    exact ⟨(hf.mem_iff hc).2 hl, hc⟩
  · have hl := (hf.mem_iff hc).1 hr
    exact (hf.readers h.ids h.ids_lt r hl hc).trans (h.readers r hl hc)
  · have hsplit : ∀ l : List (Reservation κ), l.filter (fun r => r.client = client ∧ r ∈ w.owned ++ w.reading) =
        (l.filter fun r => r.client = client).filter fun r => r ∈ w.owned ++ w.reading := by
      intro l
      rw [List.filter_filter]
      apply List.filter_congr
      intro r _
      rw [Bool.decide_and, Bool.and_comm]
    exact (hsplit _).trans ((congrArg _ hf.live).trans (hsplit _).symm)

/-! ## Reads -/

theorem Accounts.retainReservation (h : Accounts b client w) (hr : r ∈ w.owned) :
    Accounts b client (w.retainReservation i r) ∧ (w.retainReservation i r).budget.live = w.budget.live ∧
      (w.retainReservation i r).caches = w.caches ∧ (w.retainReservation i r).token = w.token ∧
      (∀ x ∈ w.references, x ∈ (w.retainReservation i r).references) ∧
      ∀ x, x ∈ (w.retainReservation i r).owned ++ (w.retainReservation i r).reading ↔ x ∈ w.owned ++ w.reading := by
  unfold World.retainReservation
  cases hf : w.frames.get i with
  | none => exact ⟨h, rfl, rfl, rfl, fun _ hx => hx, fun _ => Iff.rfl⟩
  | some f =>
    dsimp only
    by_cases hskip : (f.started || decide (r ∈ f.reservations)) = true
    · rw [if_pos hskip]
      exact ⟨h, rfl, rfl, rfl, fun _ hx => hx, fun _ => Iff.rfl⟩
    · rw [if_neg hskip]
      simp only [Bool.or_eq_true, decide_eq_true_eq, not_or, Bool.not_eq_true] at hskip
      obtain ⟨hstarted, hnew⟩ := hskip
      have hmem : f ∈ w.frames.values := Table.mem_values_iff.2 ⟨i, hf⟩
      have hok := h.frames f hmem
      have hlive := h.live r (List.mem_append_left _ (List.mem_append_left _ hr))
      -- The frame reads one reservation more, which a cache owns.
      have hread : ∀ x, x ∈ (w.frames.set i { f with reservations := f.reservations ++ [r] }).values.flatMap
          Frame.reservations ↔ x ∈ w.reading ∨ x = r := by
        intro x
        have hold := ((frames_perm hf).flatMap_right Frame.reservations).mem_iff (a := x)
        unfold World.reading
        rw [Table.values_set, hold, List.flatMap_cons, List.flatMap_cons]
        simp only [List.mem_append, List.mem_singleton]
        tauto
      have hlate : ∀ x, x ∈ (w.frames.set i { f with reservations := f.reservations ++ [r] }).values.flatMap
          Frame.taken ↔ x ∈ w.late := by
        intro x
        rw [Table.values_set]
        exact ((frames_perm hf).flatMap_right Frame.taken).symm.mem_iff
      refine ⟨?_, rfl, rfl, rfl, fun x hx => ?_, fun x => ?_⟩
      · refine h.setFrame hf (show FrameOk { f with reservations := f.reservations ++ [r] } from ⟨?_, fun hs => ?_,
          hok.completed, hok.taken⟩) (fun x hx => ?_) (h.budget.setCell r.id (h.budget.cells r.id).beginRead) rfl rfl
          fun x hx hc => ?_
        · exact List.nodup_append.2 ⟨hok.nodup, List.nodup_singleton r, fun a ha c hc hac =>
            hnew (by rw [← List.mem_singleton.1 hc, ← hac]; exact ha)⟩
        · exact absurd hs (by rw [hstarted]; decide)
        · have hx : x ∈ f.reservations ++ [r] ++ f.taken := hx
          simp only [List.mem_append, List.mem_singleton] at hx
          rcases hx with (hx | rfl) | hx
          · exact List.mem_append_left _ (List.mem_append_right _ (mem_reading_iff.2 ⟨f, hmem, hx⟩))
          · exact List.mem_append_left _ (List.mem_append_left _ hr)
          · exact List.mem_append_right _ (mem_late_iff.2 ⟨f, hmem, hx⟩)
        · have hsmall : (w.budget.cells x.id).readers + 1 < RenderBudget.usizeSize := by
            have hle := (readersOf_le (w := w) x).trans h.frames_le
            rw [h.readers x hx hc]
            unfold maxFrames at hle
            unfold RenderBudget.usizeSize
            omega
          by_cases hxr : x = r
          · subst hxr
            simp [RenderBudget.beginRead, RenderBudget.State.setCell, RenderBudget.wrappingAdd_eq hsmall, hnew]
          · have hid : x.id ≠ r.id := fun he => hxr (List.inj_on_of_nodup_map h.ids hx hlive.1 he)
            simp [RenderBudget.beginRead, RenderBudget.State.setCell, Function.update_of_ne hid, hxr]
      · unfold World.references at hx ⊢
        simp only [List.mem_append] at hx ⊢
        rcases hx with (hx | hx) | hx
        · exact Or.inl (Or.inl hx)
        · exact Or.inl (Or.inr ((hread x).2 (Or.inl hx)))
        · exact Or.inr ((hlate x).2 hx)
      · show x ∈ w.owned ++ (w.frames.set i _).values.flatMap Frame.reservations ↔ _
        rw [List.mem_append, hread, List.mem_append]
        constructor
        · rintro (hx | hx | rfl)
          · exact Or.inl hx
          · exact Or.inr hx
          · exact Or.inl hr
        · rintro (hx | hx)
          · exact Or.inl hx
          · exact Or.inr (Or.inl hx)

end CocoaWay.Renderer
