import CocoaWay.FrameGate.Threads

/-!
# The frame gate under every interleaving

* `Core` : the word packs the frames in flight, the demand the log leaves outstanding and the drain request;
* `Owners` : a thread inside `release` owns a frame in flight, alone;
* `step_cases` : everything an atomic step can do; `inv_step` : both invariants are kept by each of them;
* `frameGate_guarantees` : in every state any threads can reach, the count is the number of admitted frames not yet
  released, every demand is answered by a release that returns `true` or still registered, and no release returns `true`
  without a demand.
-/

namespace CocoaWay.FrameGate
open Lib

variable {ι : Type*} [DecidableEq ι] {s s' : State ι} {a : Event ι}

/-! ## One step -/

/-- The frame a thread is releasing. -/
def Pc.frame? : Pc → Option Nat
  | .releaseLoad frame | .releaseCas frame _ => some frame
  | _ => none

theorem step_cases (h : step s a = some s') :
    (∃ t reserve, s.threads t = .idle ∧ s' = s.setPc t (.admitLoad reserve)) ∨
    (∃ untilIdle, s' = { s with
      word := if untilIdle then deferUntilIdle s.word else deferRedraw s.word
      log := .deferred untilIdle s.inFlight.length :: s.log }) ∨
    s' = s ∨
    (∃ t frame, s.threads t = .idle ∧ frame < s.frames ∧ frame ∉ s.started ∧
      s' = { s.setPc t (.releaseLoad frame) with started := frame :: s.started }) ∨
    (∃ t reserve, (s.threads t).frame? = none ∧ s' = s.setPc t (.admitCas reserve s.word)) ∨
    (∃ t frame, (s.threads t).frame? = some frame ∧ s' = s.setPc t (.releaseCas frame s.word)) ∨
    (∃ t reserve, s.threads t = .admitCas reserve s.word ∧ s' = s.finishAdmit t reserve) ∨
    ∃ t frame, s.threads t = .releaseCas frame s.word ∧ s' = s.finishRelease t frame := by
  cases a with
  | ready t =>
    simp only [step, Option.ite_none_right_eq_some, Option.some.injEq] at h
    exact Or.inl ⟨t, false, h.1, h.2.symm⟩
  | begin t =>
    simp only [step, Option.ite_none_right_eq_some, Option.some.injEq] at h
    exact Or.inl ⟨t, true, h.1, h.2.symm⟩
  | deferRedraw t =>
    simp only [step, Option.ite_none_right_eq_some, Option.some.injEq] at h
    exact Or.inr (Or.inl ⟨false, h.2.symm⟩)
  | deferUntilIdle t =>
    simp only [step, Option.ite_none_right_eq_some, Option.some.injEq] at h
    exact Or.inr (Or.inl ⟨true, h.2.symm⟩)
  | complete t frame =>
    simp only [step, Option.ite_none_right_eq_some] at h
    obtain ⟨⟨hidle, hlt⟩, h⟩ := h
    by_cases hmem : frame ∈ s.started
    · rw [if_pos hmem, Option.some.injEq] at h
      exact Or.inr (Or.inr (Or.inl h.symm))
    · rw [if_neg hmem, Option.some.injEq] at h
      exact Or.inr (Or.inr (Or.inr (Or.inl ⟨t, frame, hidle, hlt, hmem, h.symm⟩)))
  | load t =>
    simp only [step] at h
    cases hpc : s.threads t with
    | admitLoad reserve =>
      simp only [hpc, Option.some.injEq] at h
      exact Or.inr (Or.inr (Or.inr (Or.inr (Or.inl ⟨t, reserve, by simp [hpc, Pc.frame?], h.symm⟩))))
    | releaseLoad frame =>
      simp only [hpc, Option.some.injEq] at h
      exact Or.inr (Or.inr (Or.inr (Or.inr (Or.inr (Or.inl ⟨t, frame, by simp [hpc, Pc.frame?], h.symm⟩)))))
    | idle => simp [hpc] at h
    | admitCas _ _ => simp [hpc] at h
    | releaseCas _ _ => simp [hpc] at h
  | compareExchange t spurious =>
    simp only [step] at h
    cases hpc : s.threads t with
    | admitCas reserve state =>
      simp only [hpc] at h
      by_cases hc : s.word = state ∧ !spurious
      · rw [if_pos hc, Option.some.injEq] at h
        rw [← hc.1] at hpc
        exact Or.inr (Or.inr (Or.inr (Or.inr (Or.inr (Or.inr (Or.inl ⟨t, reserve, hpc, h.symm⟩))))))
      · rw [if_neg hc, Option.some.injEq] at h
        exact Or.inr (Or.inr (Or.inr (Or.inr (Or.inl ⟨t, reserve, by simp [hpc, Pc.frame?], h.symm⟩))))
    | releaseCas frame state =>
      simp only [hpc] at h
      by_cases hc : s.word = state ∧ !spurious
      · rw [if_pos hc, Option.some.injEq] at h
        rw [← hc.1] at hpc
        exact Or.inr (Or.inr (Or.inr (Or.inr (Or.inr (Or.inr (Or.inr ⟨t, frame, hpc, h.symm⟩))))))
      · rw [if_neg hc, Option.some.injEq] at h
        exact Or.inr (Or.inr (Or.inr (Or.inr (Or.inr (Or.inl ⟨t, frame, by simp [hpc, Pc.frame?], h.symm⟩)))))
    | idle => simp [hpc] at h
    | admitLoad _ => simp [hpc] at h
    | releaseLoad _ => simp [hpc] at h

/-! ## The invariants -/

/-- Registers a demand while frames are in flight. -/
def Entry.demandsInFlight (e : Entry) : Bool := e.demands && 0 < e.demandedWith

/-- What a single entry says about the moment it was logged. -/
def Entry.Sound : Entry → Prop
  | .refused inFlight => 0 < inFlight
  | .released _ drain left woke => woke = true → drain = true → left = 0
  | _ => True

/-- The word packs the gate that the log and the frames in flight describe. -/
structure Core (s : State ι) : Prop where
  packs : ∃ g : Gate, s.word = g.encode ∧ g.count.val = s.inFlight.length ∧
    g.waiting = Outstanding Entry.demands Entry.wakes s.log ∧ g.drain = Outstanding Entry.drains Entry.admits s.log
  kept : Outstanding Entry.demandsInFlight Entry.wakes s.log = true → s.inFlight ≠ []
  warranted : Warranted Entry.demands Entry.wakes s.log
  sound : ∀ e ∈ s.log, e.Sound
  inFlight_iff : ∀ f, f ∈ s.inFlight ↔
    Entry.admitted (some f) ∈ s.log ∧ ∀ drain left woke, Entry.released f drain left woke ∉ s.log

/-- Who may release what. -/
structure Owners (s : State ι) : Prop where
  nodup : s.inFlight.Nodup
  admitted_lt : ∀ f, Entry.admitted (some f) ∈ s.log → f < s.frames
  unstarted : ∀ f < s.frames, f ∉ s.started → f ∈ s.inFlight
  releasing : ∀ t f, (s.threads t).frame? = some f → f ∈ s.inFlight ∧ f ∈ s.started
  alone : ∀ t t' f, (s.threads t).frame? = some f → (s.threads t').frame? = some f → t = t'
  released_lt : ∀ f drain left woke, Entry.released f drain left woke ∈ s.log → f < s.frames
  loaded : ∀ t f state, s.threads t = .releaseCas f state → 0 < (state &&& frameCount).toNat

omit [DecidableEq ι] in
theorem Core.count (h : Core s) : (s.word &&& frameCount).toNat = s.inFlight.length := by
  obtain ⟨g, hw, hc, -⟩ := h.packs
  rw [hw, encode_and_frameCount, hc]

theorem Core.setPc (h : Core s) (t : ι) (pc : Pc) :
    Core (s.setPc t pc) := ⟨h.packs, h.kept, h.warranted, h.sound, h.inFlight_iff⟩

/-- A thread that moves on inside its operation keeps what it owns. -/
theorem Owners.setPc (h : Owners s) (t : ι) (pc : Pc) (hf : pc.frame? = (s.threads t).frame?)
    (hl : ∀ f state, pc = .releaseCas f state → 0 < (state &&& frameCount).toNat) : Owners (s.setPc t pc) := by
  have hframe : ∀ t', ((s.setPc t pc).threads t').frame? = (s.threads t').frame? := by
    intro t'
    by_cases htt : t' = t
    · subst htt
      simp [State.setPc, hf]
    · simp [State.setPc, Function.update_of_ne htt]
  refine ⟨h.nodup, h.admitted_lt, h.unstarted, fun t' f ht => ?_, fun t1 t2 f h1 h2 => ?_, h.released_lt,
    fun t' f state ht => ?_⟩
  · rw [hframe] at ht
    exact h.releasing t' f ht
  · rw [hframe] at h1 h2
    exact h.alone t1 t2 f h1 h2
  · by_cases htt : t' = t
    · subst htt
      simp only [State.setPc, Function.update_self] at ht
      exact hl f state ht
    · simp only [State.setPc, Function.update_of_ne htt] at ht
      exact h.loaded t' f state ht

/-! ## Deferrals -/

omit [DecidableEq ι] in
theorem Core.defer (h : Core s) (untilIdle : Bool) :
    Core { s with
      word := if untilIdle then deferUntilIdle s.word else deferRedraw s.word
      log := .deferred untilIdle s.inFlight.length :: s.log } := by
  obtain ⟨g, hw, hc, hd, hr⟩ := h.packs
  refine ⟨⟨g.defer untilIdle, ?_, hc, ?_, ?_⟩, fun ho => ?_, warranted_cons h.warranted ?_, ?_, fun f => ?_⟩
  · cases untilIdle
    · exact (congrArg deferRedraw hw).trans (deferRedraw_encode g)
    · exact (congrArg deferUntilIdle hw).trans (deferUntilIdle_encode g)
  · rw [outstanding_of_req rfl]
    rfl
  · simp only [Gate.defer, hr, outstanding_cons, Entry.drains, Entry.admits, Bool.not_false, Bool.true_and]
    rw [Bool.or_comm]
  · rw [outstanding_cons, Bool.or_eq_true] at ho
    rcases ho with ho | ho
    · simp only [Entry.demandsInFlight, Entry.demandedWith, Bool.and_eq_true] at ho
      exact List.ne_nil_of_length_pos (of_decide_eq_true ho.2)
    · exact h.kept (Bool.and_eq_true _ _ ▸ ho).2
  · intro hx
    cases hx
  · intro e he
    rcases List.mem_cons.1 he with rfl | he
    · trivial
    · exact h.sound e he
  · simpa using h.inFlight_iff f

/-! ## Admissions -/

theorem finishAdmit_refused {g : Gate} (hw : s.word = g.encode) (hr : g.ready = false) (t : ι) (reserve : Bool) :
    s.finishAdmit t reserve = { s.setPc t .idle with
      word := (g.admission reserve).encode
      log := .refused s.inFlight.length :: s.log } := by
  simp only [State.finishAdmit, hw, admitNext_encode, hr]
  rfl

theorem finishAdmit_ready {g : Gate} (hw : s.word = g.encode) (hr : g.ready = true) (t : ι) :
    s.finishAdmit t false = { s.setPc t .idle with
      word := (g.admission false).encode
      log := .admitted none :: s.log } := by
  simp only [State.finishAdmit, hw, admitNext_encode, hr]
  rfl

theorem finishAdmit_begin {g : Gate} (hw : s.word = g.encode) (hr : g.ready = true) (t : ι) :
    s.finishAdmit t true = { s.setPc t .idle with
      word := (g.admission true).encode
      frames := s.frames + 1
      inFlight := s.frames :: s.inFlight
      log := .admitted (some s.frames) :: s.log } := by
  simp only [State.finishAdmit, hw, admitNext_encode, hr]
  rfl

/-- The demand and drain flags after a successful admission. -/
theorem Gate.admit_flags (g : Gate) (reserve : Bool) (hr : g.ready = true) :
    (g.admission reserve).waiting = g.waiting ∧ (g.admission reserve).drain = false := by
  simp [Gate.admission, hr]

theorem Core.finishAdmit (h : Core s) (ho : Owners s) (t : ι) (reserve : Bool) : Core (s.finishAdmit t reserve) := by
  obtain ⟨g, hw, hc, hd, hdr⟩ := h.packs
  have sound_cons : ∀ e : Entry, e.Sound → ∀ x ∈ e :: s.log, x.Sound := fun e he x hx =>
    (List.mem_cons.1 hx).elim (fun hxe => hxe ▸ he) (h.sound x)
  cases hr : g.ready with
  | false =>
    rw [finishAdmit_refused hw hr]
    have hpos : 0 < s.inFlight.length := hc ▸ Gate.count_pos_of_refused g hr
    refine ⟨⟨g.admission reserve, rfl, ?_, ?_, ?_⟩, fun _ => List.ne_nil_of_length_pos hpos,
      warranted_cons h.warranted ?_,
      sound_cons _ hpos, fun f => ?_⟩
    · simpa [Gate.admission, hr] using hc
    · rw [outstanding_of_req rfl]
      simp [Gate.admission, hr]
    · rw [outstanding_of_silent rfl rfl]
      simpa [Gate.admission, hr] using hdr
    · intro hx
      cases hx
    · simpa using h.inFlight_iff f
  | true =>
    have hf := Gate.admit_flags g reserve hr
    have hcount := Gate.admit_count g reserve hr
    cases reserve with
    | false =>
      rw [finishAdmit_ready hw hr]
      refine ⟨⟨g.admission false, rfl, ?_, ?_, ?_⟩, fun hk => ?_, warranted_cons h.warranted ?_,
        sound_cons _ trivial, fun f => ?_⟩
      · simpa using hcount.trans hc
      · rw [hf.1, hd, outstanding_of_silent rfl rfl]
      · rw [hf.2, outstanding_of_ans rfl rfl]
      · rw [outstanding_of_silent rfl rfl] at hk
        exact h.kept hk
      · intro hx
        cases hx
      · simpa using h.inFlight_iff f
    | true =>
      rw [finishAdmit_begin hw hr]
      refine ⟨⟨g.admission true, rfl, ?_, ?_, ?_⟩, fun hk => List.cons_ne_nil _ _, warranted_cons h.warranted ?_,
        sound_cons _ trivial, fun f => ?_⟩
      · simpa using hcount.trans (congrArg (· + 1) hc)
      · rw [hf.1, hd, outstanding_of_silent rfl rfl]
      · rw [hf.2, outstanding_of_ans rfl rfl]
      · intro hx
        cases hx
      · by_cases hfs : f = s.frames
        · subst hfs
          simp only [List.mem_cons_self, true_iff, true_and]
          intro drain left woke hx
          simp only [List.mem_cons, reduceCtorEq, false_or] at hx
          exact absurd (ho.released_lt _ _ _ _ hx) (Nat.lt_irrefl _)
        · simpa [hfs] using h.inFlight_iff f

theorem Owners.finishAdmit (h : Owners s) (hcore : Core s) (t : ι) (reserve : Bool)
    (ht : (s.threads t).frame? = none) : Owners (s.finishAdmit t reserve) := by
  obtain ⟨g, hw, -⟩ := hcore.packs
  have hidle : Owners (s.setPc t .idle) := h.setPc t .idle ht.symm (fun _ _ hx => by cases hx)
  cases hr : g.ready with
  | false =>
    rw [finishAdmit_refused hw hr]
    exact ⟨hidle.nodup, by simpa using h.admitted_lt, hidle.unstarted, hidle.releasing, hidle.alone,
      by simpa using h.released_lt, hidle.loaded⟩
  | true =>
    cases reserve with
    | false =>
      rw [finishAdmit_ready hw hr]
      exact ⟨hidle.nodup, by simpa using h.admitted_lt, hidle.unstarted, hidle.releasing, hidle.alone,
        by simpa using h.released_lt, hidle.loaded⟩
    | true =>
      rw [finishAdmit_begin hw hr]
      have hfresh : s.frames ∉ s.inFlight := fun hm =>
        Nat.lt_irrefl _ (h.admitted_lt _ ((hcore.inFlight_iff _).1 hm).1)
      refine ⟨List.nodup_cons.2 ⟨hfresh, h.nodup⟩, fun f hf => ?_, fun f hlt hns => ?_, fun t' f ht' => ?_, hidle.alone,
        fun f d l w hx => ?_, hidle.loaded⟩
      · simp only [List.mem_cons, Entry.admitted.injEq, Option.some.injEq] at hf
        rcases hf with rfl | hf
        · exact Nat.lt_succ_self _
        · exact Nat.lt_succ_of_lt (h.admitted_lt f hf)
      · rcases Nat.lt_succ_iff_lt_or_eq.1 hlt with hlt | rfl
        · exact List.mem_cons_of_mem _ (h.unstarted f hlt hns)
        · exact List.mem_cons_self
      · obtain ⟨hin, hst⟩ := hidle.releasing t' f ht'
        exact ⟨List.mem_cons_of_mem _ hin, hst⟩
      · simp only [List.mem_cons, reduceCtorEq, false_or] at hx
        exact Nat.lt_succ_of_lt (h.released_lt f d l w hx)

/-! ## Releases -/

theorem finishRelease_eq {g : Gate} (hw : s.word = g.encode) (hpos : 0 < g.count.val) (t : ι) (frame : Nat) :
    s.finishRelease t frame = { s.setPc t .idle with
      word := g.release.encode
      inFlight := s.inFlight.erase frame
      log := .released frame g.drain (s.inFlight.erase frame).length g.wakes :: s.log } := by
  simp only [State.finishRelease, hw, releaseNext_encode g hpos, encode_and_draining]

theorem Core.finishRelease (h : Core s) (ho : Owners s) (t : ι) (frame : Nat) (hin : frame ∈ s.inFlight) :
    Core (s.finishRelease t frame) := by
  obtain ⟨g, hw, hc, hd, hdr⟩ := h.packs
  have hpos : 0 < g.count.val := hc ▸ List.length_pos_of_mem hin
  have hleft : (s.inFlight.erase frame).length = g.release.count.val := by
    rw [List.length_erase_of_mem hin, Gate.release_count g hpos, hc]
  rw [finishRelease_eq hw hpos]
  refine ⟨⟨g.release, rfl, hleft.symm, ?_, ?_⟩, fun hk => ?_, warranted_cons h.warranted fun hwk => ?_,
    fun e he => ?_, fun f => ?_⟩
  · cases hwk : g.wakes with
    | true =>
      rw [outstanding_of_ans rfl rfl]
      have := Gate.release_answers g hwk
      exact this
    | false =>
      rw [outstanding_of_silent rfl rfl, ← hd]
      exact Gate.release_keeps g hpos hwk
  · rw [outstanding_of_silent rfl rfl, ← hdr]
    rfl
  · cases hwk : g.wakes with
    | true => rw [hwk, outstanding_of_ans rfl rfl] at hk; cases hk
    | false =>
      rw [hwk, outstanding_of_silent rfl rfl] at hk
      have hwait : g.waiting = true := by
        rw [hd]
        exact outstanding_mono (fun e he => (Bool.and_eq_true _ _ ▸ he).1) hk
      have hr := (Gate.release_waiting g hpos hwait hwk).2
      rw [← hleft] at hr
      exact List.ne_nil_of_length_pos hr
  · rw [← hd]
    exact (Bool.and_eq_true _ _ ▸ hwk).2
  · rcases List.mem_cons.1 he with rfl | he
    · intro hwk hdrain
      rw [hleft]
      exact Gate.wakes_last g hwk hdrain hpos
    · exact h.sound e he
  · rw [ho.nodup.mem_erase_iff, h.inFlight_iff]
    by_cases hff : f = frame
    · subst hff
      simp only [ne_eq, not_true_eq_false, false_and, false_iff, not_and, not_forall]
      exact fun _ => ⟨_, _, _, fun hn => hn List.mem_cons_self⟩
    · simp [hff]

theorem Owners.finishRelease (h : Owners s) (hcore : Core s) (t : ι) (frame : Nat)
    (ht : (s.threads t).frame? = some frame) : Owners (s.finishRelease t frame) := by
  obtain ⟨g, hw, hc, -⟩ := hcore.packs
  obtain ⟨hin, hstarted⟩ := h.releasing t frame ht
  rw [finishRelease_eq hw (hc ▸ List.length_pos_of_mem hin)]
  -- After the step the thread owns nothing, and nobody else owned its frame.
  have hother : ∀ t' f, (Function.update s.threads t .idle t').frame? = some f →
      (s.threads t').frame? = some f ∧ t' ≠ t := by
    intro t' f ht'
    by_cases htt : t' = t
    · subst htt
      simp [Pc.frame?] at ht'
    · rw [Function.update_of_ne htt] at ht'
      exact ⟨ht', htt⟩
  refine ⟨h.nodup.erase frame, fun f hf => ?_, fun f hlt hns => ?_, fun t' f ht' => ?_, fun t1 t2 f h1 h2 => ?_,
    fun f d l w hx => ?_, fun t' f state ht' => ?_⟩
  · simp only [List.mem_cons, reduceCtorEq, false_or] at hf
    exact h.admitted_lt f hf
  · have hne : f ≠ frame := fun hx => hns (hx ▸ hstarted)
    exact (List.mem_erase_of_ne hne).2 (h.unstarted f hlt hns)
  · obtain ⟨hf, htt⟩ := hother t' f ht'
    have hne : f ≠ frame := fun hx => htt (h.alone t' t frame (hx ▸ hf) ht)
    exact ⟨(List.mem_erase_of_ne hne).2 (h.releasing t' f hf).1, (h.releasing t' f hf).2⟩
  · exact h.alone t1 t2 f (hother t1 f h1).1 (hother t2 f h2).1
  · rcases List.mem_cons.1 hx with hx | hx
    · cases hx
      exact h.admitted_lt _ ((hcore.inFlight_iff _).1 hin).1
    · exact h.released_lt f d l w hx
  · by_cases htt : t' = t
    · subst htt
      simp [State.setPc] at ht'
    · simp only [State.setPc, Function.update_of_ne htt] at ht'
      exact h.loaded t' f state ht'

/-- A thread that wins the swap of `completion_started` owns its frame. -/
theorem Owners.complete (h : Owners s) (t : ι) (frame : Nat) (ht : s.threads t = .idle) (hlt : frame < s.frames)
    (hns : frame ∉ s.started) :
    Owners { s.setPc t (.releaseLoad frame) with started := frame :: s.started } := by
  have hcases : ∀ t' f, (Function.update s.threads t (.releaseLoad frame) t').frame? = some f →
      t' = t ∧ f = frame ∨ t' ≠ t ∧ (s.threads t').frame? = some f := by
    intro t' f ht'
    by_cases htt : t' = t
    · subst htt
      rw [Function.update_self] at ht'
      exact Or.inl ⟨rfl, (Option.some.inj ht').symm⟩
    · rw [Function.update_of_ne htt] at ht'
      exact Or.inr ⟨htt, ht'⟩
  refine ⟨h.nodup, h.admitted_lt, fun f hf hnf => h.unstarted f hf fun hx => hnf (List.mem_cons_of_mem _ hx),
    fun t' f ht' => ?_, fun t1 t2 f h1 h2 => ?_, h.released_lt, fun t' f state ht' => ?_⟩
  · rcases hcases t' f ht' with ⟨-, rfl⟩ | ⟨-, hf⟩
    · exact ⟨h.unstarted _ hlt hns, List.mem_cons_self⟩
    · exact ⟨(h.releasing t' f hf).1, List.mem_cons_of_mem _ (h.releasing t' f hf).2⟩
  · rcases hcases t1 f h1 with ⟨rfl, rfl⟩ | ⟨-, hf1⟩ <;> rcases hcases t2 f h2 with ⟨rfl, h2f⟩ | ⟨-, hf2⟩
    · rfl
    · exact absurd (h.releasing t2 _ hf2).2 hns
    · exact absurd (h.releasing t1 f hf1).2 (h2f ▸ hns)
    · exact h.alone t1 t2 f hf1 hf2
  · by_cases htt : t' = t
    · subst htt
      simp [State.setPc] at ht'
    · simp only [State.setPc, Function.update_of_ne htt] at ht'
      exact h.loaded t' f state ht'

/-! ## Every step keeps the invariants -/

theorem inv_init : Core (system ι).init ∧ Owners (system ι).init := by
  refine ⟨⟨⟨⟨0, false, false⟩, rfl, rfl, rfl, rfl⟩, fun h => (by cases h), trivial, fun e he => (by cases he),
    fun f => ?_⟩,
    ⟨List.nodup_nil, fun f hf => (by cases hf), fun f hf => absurd hf (Nat.not_lt_zero f), fun t f hf => (by cases hf),
      fun t t' f hf => (by cases hf), fun f d l w hx => (by cases hx), fun t f state hx => (by cases hx)⟩⟩
  simp [system]

theorem inv_step (h : Core s ∧ Owners s) (hs : step s a = some s') : Core s' ∧ Owners s' := by
  obtain ⟨hcore, hown⟩ := h
  have hpos : ∀ t f, (s.threads t).frame? = some f → 0 < (s.word &&& frameCount).toNat := fun t f hf =>
    hcore.count ▸ List.length_pos_of_mem (hown.releasing t f hf).1
  rcases step_cases hs with ⟨t, reserve, ht, rfl⟩ | ⟨untilIdle, rfl⟩ | rfl | ⟨t, frame, ht, hlt, hns, rfl⟩ |
    ⟨t, reserve, ht, rfl⟩ | ⟨t, frame, ht, rfl⟩ | ⟨t, reserve, ht, rfl⟩ | ⟨t, frame, ht, rfl⟩
  · exact ⟨hcore.setPc t _, hown.setPc t _ (by rw [ht]; rfl) (fun _ _ hx => by cases hx)⟩
  · exact ⟨hcore.defer untilIdle, ⟨hown.nodup, by simpa using hown.admitted_lt, hown.unstarted, hown.releasing,
      hown.alone, by simpa using hown.released_lt, hown.loaded⟩⟩
  · exact ⟨hcore, hown⟩
  · exact ⟨⟨hcore.packs, hcore.kept, hcore.warranted, hcore.sound, hcore.inFlight_iff⟩,
      hown.complete t frame ht hlt hns⟩
  · exact ⟨hcore.setPc t _, hown.setPc t _ ht.symm (fun _ _ hx => by cases hx)⟩
  · refine ⟨hcore.setPc t _, hown.setPc t _ ht.symm (fun f state hx => ?_)⟩
    cases hx
    exact hpos t _ ht
  · exact ⟨hcore.finishAdmit hown t reserve, hown.finishAdmit hcore t reserve (by rw [ht]; rfl)⟩
  · have hf : (s.threads t).frame? = some frame := by rw [ht]; rfl
    exact ⟨hcore.finishRelease hown t frame (hown.releasing t frame hf).1, hown.finishRelease hcore t frame hf⟩

theorem inv_reachable (h : (system ι).Reachable s) : Core s ∧ Owners s :=
  System.Reachable.invariant (I := fun s => Core s ∧ Owners s) inv_init (fun _ _ _ => inv_step) h

/-! ## The guarantees of the gate -/

/-- What the gate promises in a state. -/
structure Guarantees (s : State ι) : Prop where
  /-- The frames in flight are those admitted and not yet released, and the low bits count them. -/
  inFlight_iff : ∀ f, f ∈ s.inFlight ↔
    Entry.admitted (some f) ∈ s.log ∧ ∀ drain left woke, Entry.released f drain left woke ∉ s.log
  nodup : s.inFlight.Nodup
  count_eq : (s.word &&& frameCount).toNat = s.inFlight.length
  count_le : s.inFlight.length ≤ maxFrames
  /-- The flag bits hold what was stored in them: no count ever carries or borrows into them. -/
  waiting_eq : (s.word &&& redrawWaiting != 0) = Outstanding Entry.demands Entry.wakes s.log
  draining_eq : (s.word &&& draining != 0) = Outstanding Entry.drains Entry.admits s.log
  /-- The debug assertion of `release` holds of every word it loads. -/
  asserted : ∀ t frame state, s.threads t = .releaseCas frame state → 0 < (state &&& frameCount).toNat
  /-- An admission is refused only with frames in flight. -/
  refused : ∀ inFlight, Entry.refused inFlight ∈ s.log → 0 < inFlight
  /-- A demand was answered by a later release, or it is registered, with frames in flight if there were any. -/
  kept : ∀ post e pre, s.log = post ++ e :: pre → e.demands = true →
    (∃ w ∈ post, w.wakes = true) ∨
      (s.word &&& redrawWaiting != 0) = true ∧ (0 < e.demandedWith → s.inFlight ≠ [])
  /-- Between two releases that return `true`, and before the first, a demand is registered. -/
  demanded : ∀ post w pre, s.log = post ++ w :: pre → w.wakes = true →
    ∃ mid e older, pre = mid ++ e :: older ∧ e.demands = true ∧ ∀ b ∈ mid, b.wakes = false
  /-- With the drain flag set only the release of the last frame returns `true`. -/
  last : ∀ frame left, Entry.released frame true left true ∈ s.log → left = 0

/-- **The frame gate under every interleaving of any threads.** -/
theorem frameGate_guarantees (h : (system ι).Reachable s) : Guarantees s := by
  obtain ⟨hcore, hown⟩ := inv_reachable h
  obtain ⟨g, hw, hc, hd, hdr⟩ := hcore.packs
  have hwait : (s.word &&& redrawWaiting != 0) = Outstanding Entry.demands Entry.wakes s.log := by
    rw [hw, encode_and_redrawWaiting, hd]
  refine ⟨hcore.inFlight_iff, hown.nodup, hcore.count, hc ▸ Nat.le_of_lt_succ g.count.isLt, hwait, ?_, hown.loaded,
    fun n hn => hcore.sound _ hn, fun post e pre hlog he => ?_, fun post w pre hlog hwk => ?_,
    fun frame left hx => hcore.sound _ hx rfl rfl⟩
  · rw [hw, encode_and_draining, hdr]
  · rw [hwait]
    by_cases hany : ∃ w ∈ post, w.wakes = true
    · exact Or.inl hany
    · refine Or.inr ⟨hlog ▸ (answered_or_outstanding he).resolve_left hany, fun hpos => hcore.kept ?_⟩
      have hde : e.demandsInFlight = true := by simp [Entry.demandsInFlight, he, hpos]
      rw [hlog]
      exact (answered_or_outstanding hde).resolve_left hany
  · exact Warranted.request_before (hlog ▸ hcore.warranted) hwk

/-- Two threads: a refused admission while three frames are in flight is answered by the next release. -/
theorem frameGate_guarantees_refused : ∃ s : State Bool, (system Bool).Reachable s ∧ Guarantees s ∧
    s.log.head? = some (.released 0 false 2 true) ∧ Entry.refused 3 ∈ s.log := by
  have hrun : ((system Bool).run (system Bool).init
      [.begin true, .load true, .compareExchange true false, .begin false, .load false, .compareExchange false true,
        .compareExchange false false, .begin true, .load true, .compareExchange true false, .begin true,
        .complete false 0, .load false, .load true, .compareExchange true false, .compareExchange false false,
        .compareExchange false false]).any
      (fun s => s.log.head? = some (.released 0 false 2 true) ∧ Entry.refused 3 ∈ s.log) = true := by decide
  obtain ⟨s, h, hp⟩ := System.exists_reachable hrun
  exact ⟨s, h, frameGate_guarantees h, of_decide_eq_true hp⟩

end CocoaWay.FrameGate
