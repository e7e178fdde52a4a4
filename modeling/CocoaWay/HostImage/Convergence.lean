import CocoaWay.HostImage.Exchange

/-!
# The newest copy is kept

* `SameCounts`, `Jobs` : what polls, steps of the worker thread and requests of clients leave alone;
* `Faithful` : the recorded contents are those of the pasteboard;
* `Careful` : the moves after which nothing is mistaken for newer or for unchanged;
* `Sound` of a world, `Sound.step` : what every careful move keeps;
* `newest_kept` : only the newest copy is installed, and is then what the pasteboard holds.
-/

namespace CocoaWay.HostImage
open Lib

/-! ## Inner steps -/

/-- The generation, the change counts and the jobs offered are as they were. -/
structure SameCounts (s s' : State) : Prop where
  generation : s'.generation = s.generation
  cached : s'.cachedCount = s.cachedCount
  live : s'.liveCount = s.liveCount
  offered : s'.offered = s.offered

section Inner

variable {s s' : State}

theorem SameCounts.trans {s₁ s₂ s₃ : State} (h : SameCounts s₁ s₂) (h' : SameCounts s₂ s₃) : SameCounts s₁ s₃ :=
  ⟨h'.generation.trans h.generation, h'.cached.trans h.cached, h'.live.trans h.live, h'.offered.trans h.offered⟩

theorem sameCounts_expire (s : State) : SameCounts s s.expire := by
  rcases expire_cases s with ⟨he, -⟩ | ⟨he, -⟩
  · rw [he]
    exact ⟨rfl, rfl, rfl, rfl⟩
  · rw [he]
    exact ⟨rfl, rfl, rfl, rfl⟩

theorem sameCounts_receiveResult (s : State) : SameCounts s s.receiveResult := by
  have hr := receiveResult_received s
  generalize s.receiveResult = s' at hr
  cases hr with
  | nothing _ => exact ⟨rfl, rfl, rfl, rfl⟩
  | result _ => exact ⟨rfl, rfl, rfl, rfl⟩

theorem sameCounts_startNext (s : State) (spawnOk : Bool) : SameCounts s (s.startNext spawnOk) := by
  have hn := startNext_next s spawnOk
  generalize s.startNext spawnOk = s' at hn
  cases hn <;> exact ⟨rfl, rfl, rfl, rfl⟩

theorem sameCounts_pollResults (s : State) (spawnOk : Bool) : SameCounts s (s.pollResults spawnOk) := by
  unfold State.pollResults
  split
  · exact ((sameCounts_expire s).trans (sameCounts_receiveResult _)).trans (sameCounts_startNext _ spawnOk)
  · exact ⟨rfl, rfl, rfl, rfl⟩

theorem sameCounts_inner {e : Event} (he : e.isInner = true) (hs : HostImage.step s e = some s') : SameCounts s s' := by
  cases e with
  | poll spawnOk =>
    obtain rfl := Option.some.inj hs
    exact sameCounts_pollResults s spawnOk
  | send kind fd userData =>
    simp only [HostImage.step] at hs
    split at hs
    · cases hs
    · obtain rfl := Option.some.inj hs
      unfold State.sendSelection
      dsimp only
      repeat' split
      all_goals exact ⟨rfl, rfl, rfl, rfl⟩
  | receive | exit =>
    obtain ⟨_, _, -, -, rfl⟩ := threadStep_some hs
    exact ⟨rfl, rfl, rfl, rfl⟩
  | finish result =>
    obtain ⟨s₁, hs₁, rfl⟩ := Option.map_eq_some_iff.1 hs
    obtain ⟨_, _, -, -, rfl⟩ := threadStep_some hs₁
    dsimp only
    split <;> exact ⟨rfl, rfl, rfl, rfl⟩
  | load _ _ | newSelection | installGuest _ _ _ _ _ | hostCopy _ => cases he

end Inner

/-! ## Contents of the pasteboard -/

/-- What is recorded is what the pasteboard holds; an image may also be converted from a TIFF that it holds. -/
structure Faithful (c : HostClipboardContents) (p : Pasteboard) : Prop where
  text : c.text = p.text
  textOnly : c.textOnly = true → p.image = .none
  image : ∀ image, c.imagePng = some image → p.image = .png image ∨ p.image.isTiff = true

theorem faithful_fromSnapshot (p : Pasteboard) :
    Faithful (.fromSnapshot p.text (match p.image with | .png image => some image | _ => none)
      (match p.image with | .tiff _ | .failed _ => true | _ => false)) p := by
  obtain ⟨text, image⟩ := p
  refine ⟨rfl, ?_, ?_⟩
  · cases image <;> simp [HostClipboardContents.fromSnapshot]
  · cases image <;> simp [HostClipboardContents.fromSnapshot]

/-- Recorded contents that are taken for the payload are all the pasteboard holds, unless that is a TIFF. -/
theorem Faithful.payload {c : HostClipboardContents} {p : Pasteboard} (h : Faithful c p) {payload : ClipboardPayload}
    (hp : c.isPayload payload = true) (htiff : payload.kind = .image → p.image.isTiff = false) : p = .of payload := by
  obtain ⟨text, image⟩ := p
  cases payload with
  | text t =>
    simp only [HostClipboardContents.isPayload, HostClipboardContents.matchesTextOnly, Bool.and_eq_true, decide_eq_true_eq]
      at hp
    obtain ⟨⟨htextOnly, -⟩, htext⟩ := hp
    have himage : image = .none := h.textOnly htextOnly
    have htext : text = some t := h.text.symm.trans htext
    rw [himage, htext]
    rfl
  | image i =>
    simp only [HostClipboardContents.isPayload, Bool.and_eq_true, decide_eq_true_eq, Option.isNone_iff_eq_none] at hp
    have htext : text = none := h.text.symm.trans hp.2
    rcases h.image i hp.1 with himage | himage
    · have himage : image = .png i := himage
      rw [himage, htext]
      rfl
    · rw [htiff rfl] at himage
      cases himage

/-! ## Careful moves -/

/-- The moves after which no copy is mistaken for a newer one or for an unchanged one.
* The generation does not come back to that of a payload being read.
* A refresh does not find a change while a payload is being read that would be installed.
* A payload that is taken for the recorded contents arrives while these are of the live pasteboard, and is no image
  converted from a TIFF.
* A text can be set on the pasteboard. -/
def Careful (w : World) : Move → Prop
  | .select _ => ∀ r ∈ w.readings, r.generation ≠ (w.state.generation + 1) % 2 ^ 64
  | .refresh _ => w.state.liveCount ≠ w.state.cachedCount →
      ∀ r ∈ w.readings, r.generation ≠ (w.state.generation + 1) % 2 ^ 64 ∧ w.installs r = false
  | .arrive r payload _ ok => w.installs r = true →
      (w.state.contents.isPayload payload = true →
        w.state.cachedCount = w.state.liveCount ∧ (payload.kind = .image → w.pasteboard.image.isTiff = false)) ∧
      (w.state.contents.isPayload payload = false → payload.kind = .text → ok = true)
  | .copy _ _ | .request _ | .lose _ | .inner _ => True

/-! ## The invariant -/

structure World.Sound (w : World) : Prop where
  state : HostImage.Sound w.state
  older : ∀ r ∈ w.readings, r.copies ≤ w.copies ∧ r.changeCount ≤ w.state.liveCount
  /-- What is to be requested was selected after every request so far. -/
  fresh : w.pending.isSome = true → ∀ r ∈ w.readings, r.copies < w.copies
  distinct : (w.readings.map Reading.copies).Nodup
  newest : ∀ r ∈ w.readings, w.installs r = true ↔ r.copies = w.copies
  cached : w.state.cachedCount ≤ w.state.liveCount
  /-- A job of the live change count is for a TIFF on the pasteboard. -/
  jobs : ∀ job, job ∈ w.state.offered ∨ job ∈ w.state.started → job.token.changeCount ≤ w.state.liveCount ∧
    (job.token.changeCount = w.state.liveCount → w.pasteboard.image.isTiff = true)
  faithful : w.state.cachedCount = w.state.liveCount → Faithful w.state.contents w.pasteboard
  delivered : ∀ p, w.delivered = some p → w.pasteboard = .of p ∧ w.state.cachedCount = w.state.liveCount

namespace World

variable {w w' : World} {s' : State}

variable {r : Reading}

theorem installs_iff : w.installs r = true ↔
    r.generation = w.state.generation ∧ r.changeCount = w.state.liveCount := by
  simp [installs, HostImageToken.sourceIsCurrent]

theorem Sound.init : Sound {} :=
  ⟨HostImage.Sound.init, nofun, nofun, List.nodup_nil, nofun, by decide, by simp,
    fun h => absurd h (by decide), nofun⟩

theorem Sound.copy (h : Sound w) {pasteboard : Pasteboard} {liveCount : Int}
    (hs : w.copy pasteboard liveCount = some w') : Sound w' := by
  unfold World.copy at hs
  split at hs
  · next hlt =>
    obtain rfl := Option.some.inj hs
    have hcached := h.cached
    refine ⟨?_, ?_, ?_, h.distinct, ?_, ?_, ?_, ?_, nofun⟩
    · exact h.state.step (e := .hostCopy liveCount) rfl
    · intro r hr
      have hold := h.older r hr
      exact ⟨by simp only; omega, by simp only; omega⟩
    · intro _ r hr
      have hold := h.older r hr
      simp only
      omega
    · intro r hr
      have hold := h.older r hr
      rw [installs_iff]
      simp only
      omega
    · simp only
      omega
    · intro job hjob
      have hold := (h.jobs job hjob).1
      simp only
      omega
    · intro hc
      simp only at hc
      omega
  · cases hs

theorem Sound.select (h : Sound w) {mime : Option MimeKind} (hc : Careful w (.select mime)) : Sound (w.select mime) := by
  refine ⟨h.state.newSelection, ?_, ?_, h.distinct, ?_, h.cached, h.jobs, h.faithful, nofun⟩
  · intro r hr
    exact ⟨Nat.le_succ_of_le (h.older r hr).1, (h.older r hr).2⟩
  · intro _ r hr
    exact Nat.lt_succ_of_le (h.older r hr).1
  · intro r hr
    rw [installs_iff]
    have hold := (h.older r hr).1
    constructor
    · rintro ⟨hgeneration, -⟩
      exact absurd hgeneration (hc r hr)
    · intro heq
      exact absurd heq (Nat.ne_of_lt (Nat.lt_succ_of_le hold))

theorem Sound.request (h : Sound w) (ok : Bool) : Sound (w.request ok) := by
  unfold World.request
  cases hp : w.pending with
  | none => exact h
  | some mime =>
    have hfresh := h.fresh (by rw [hp]; rfl)
    cases ok with
    | false => exact ⟨h.state, h.older, nofun, h.distinct, h.newest, h.cached, h.jobs, h.faithful, h.delivered⟩
    | true =>
      refine ⟨h.state, ?_, nofun, ?_, ?_, h.cached, h.jobs, h.faithful, h.delivered⟩
      · exact List.forall_mem_cons.2 ⟨⟨Nat.le_refl _, Int.le_refl _⟩, h.older⟩
      · refine List.nodup_cons.2 ⟨?_, h.distinct⟩
        intro hmem
        obtain ⟨r, hr, heq⟩ := List.mem_map.1 hmem
        exact absurd heq (Nat.ne_of_lt (hfresh r hr))
      · refine List.forall_mem_cons.2 ⟨?_, h.newest⟩
        rw [installs_iff]
        exact ⟨fun _ => rfl, fun _ => ⟨rfl, rfl⟩⟩

theorem Sound.lose (h : Sound w) (r : Reading) : Sound { w with readings := w.readings.erase r } := by
  have hsub : w.readings.erase r ⊆ w.readings := List.erase_subset
  refine ⟨h.state, fun r' hr => h.older r' (hsub hr), fun hp r' hr => h.fresh hp r' (hsub hr), ?_,
    fun r' hr => h.newest r' (hsub hr), h.cached, h.jobs, h.faithful, h.delivered⟩
  exact h.distinct.sublist (List.erase_sublist.map _)

theorem Sound.inner (h : Sound w) {e : Event} (he : e.isInner = true) (hs : HostImage.step w.state e = some s') :
    Sound { w with state := s' } := by
  have hcounts := sameCounts_inner he hs
  have hnoreset : e.resets w.state = false := by cases e <;> first | rfl | cases he
  refine ⟨h.state.step hs, ?_, h.fresh, h.distinct, ?_, ?_, ?_, ?_, ?_⟩
  · intro r hr
    exact ⟨(h.older r hr).1, hcounts.live ▸ (h.older r hr).2⟩
  · intro r hr
    rw [← h.newest r hr, installs_iff, installs_iff, hcounts.generation, hcounts.live]
  · rw [hcounts.cached, hcounts.live]
    exact h.cached
  · intro job hjob
    rw [hcounts.live]
    rw [hcounts.offered] at hjob
    rcases h.state.started_cases hs with hstarted | ⟨_, job', -, -, hhead, -, hstarted, -⟩
    · rw [hstarted] at hjob
      exact h.jobs job hjob
    · rw [hstarted, List.mem_cons] at hjob
      rcases hjob with hjob | rfl | hjob
      · exact h.jobs job (.inl hjob)
      · exact h.jobs job (.inl (List.mem_of_mem_head? hhead))
      · exact h.jobs job (.inr hjob)
  · intro heq
    rw [hcounts.cached, hcounts.live] at heq
    have hf := h.faithful heq
    rcases h.state.contents_cases hs with hc | hr | ⟨_, c, worker, image, -, hp, hcurrent, -, hc⟩
    · rw [show s'.contents = _ from hc]
      exact hf
    · rw [hnoreset] at hr
      cases hr
    · -- the conversion was started for a TIFF of the live change count
      obtain ⟨hflight, -⟩ := h.state.flight.poll hp
      obtain ⟨job, hjob, htoken⟩ := h.state.flight.started _ hflight
      have hlive : job.token.changeCount = w.state.liveCount := by
        rw [htoken]
        simp only [State.isCurrent, HostImageToken.isCurrent, HostImageToken.sourceIsCurrent, Bool.and_eq_true,
          decide_eq_true_eq] at hcurrent
        exact hcurrent.1.2
      have htiff := (h.jobs job (.inr hjob)).2 hlive
      rw [show s'.contents = _ from hc]
      exact ⟨hf.text, hf.textOnly, fun _ _ => .inr htiff⟩
  · intro p hp
    rw [hcounts.cached, hcounts.live]
    exact h.delivered p hp

/-- A snapshot offers no job but one for its TIFF. -/
theorem loadSnapshot_offered {s s' : State} {text : Option String} {image : CopiedImage}
    (hs : s.loadSnapshot text image = some s') {job : HostImageJob} (hjob : job ∈ s'.offered) :
    job ∈ s.offered ∨ job.token.changeCount = s.liveCount ∧ image.isTiff = true := by
  unfold State.loadSnapshot at hs
  split at hs
  · cases hs
  · obtain rfl := Option.some.inj hs
    cases image with
    | tiff tiff =>
      rcases List.mem_cons.1 hjob with rfl | hold
      · exact .inr ⟨rfl, rfl⟩
      · exact .inl hold
    | none | png _ | failed _ => exact .inl hjob

theorem Sound.load (h : Sound w) (hne : w.state.liveCount ≠ w.state.cachedCount)
    (hc : ∀ r ∈ w.readings, r.generation ≠ (w.state.generation + 1) % 2 ^ 64 ∧ w.installs r = false)
    (hs : w.state.loadSnapshot w.pasteboard.text w.pasteboard.image = some s') :
    Sound { w with state := s', pending := none } := by
  have hsound := h.state.loadSnapshot hs
  have hoffered : ∀ job ∈ s'.offered, job ∈ w.state.offered ∨ job.token.changeCount = w.state.liveCount ∧
      w.pasteboard.image.isTiff = true := fun _ => loadSnapshot_offered hs
  unfold State.loadSnapshot at hs
  rw [if_neg hne] at hs
  obtain rfl := Option.some.inj hs
  refine ⟨hsound, h.older, nofun, h.distinct, ?_, Int.le_refl _, ?_, fun _ => faithful_fromSnapshot w.pasteboard, ?_⟩
  · intro r hr
    obtain ⟨hgeneration, hno⟩ := hc r hr
    have hold := h.newest r hr
    rw [hno] at hold
    rw [installs_iff]
    constructor
    · rintro ⟨heq, -⟩
      exact absurd heq hgeneration
    · intro heq
      exact absurd (hold.2 heq) Bool.false_ne_true
  · intro job hjob
    rcases hjob with hjob | hjob
    · rcases hoffered job hjob with hold | ⟨hlive, htiff⟩
      · exact h.jobs job (.inl hold)
      · exact ⟨hlive.le, fun _ => htiff⟩
    · exact h.jobs job (.inr hjob)
  · intro p hp
    exact absurd (h.delivered p hp).2.symm hne

theorem loadSnapshot_none {s : State} (h : s.liveCount = s.cachedCount) (text : Option String) (image : CopiedImage) :
    s.loadSnapshot text image = none := if_pos h

theorem loadSnapshot_live {s : State} {text : Option String} {image : CopiedImage} (hs : s.loadSnapshot text image = some s') :
    s'.liveCount = s.liveCount := by
  unfold State.loadSnapshot at hs
  split at hs
  · cases hs
  · obtain rfl := Option.some.inj hs
    rfl

theorem Sound.refresh (h : Sound w) {spawnOk : Bool} (hc : Careful w (.refresh spawnOk)) : Sound (w.refresh spawnOk) := by
  unfold World.refresh State.refreshHostClipboard
  by_cases heq : w.state.liveCount = w.state.cachedCount
  · rw [loadSnapshot_none heq, if_pos heq]
    exact h.inner (e := .poll spawnOk) rfl rfl
  · rw [if_neg heq]
    cases hs : w.state.loadSnapshot w.pasteboard.text w.pasteboard.image with
    | none =>
      unfold State.loadSnapshot at hs
      rw [if_neg heq] at hs
      cases hs
    | some s' =>
      have hload := h.load heq (hc heq) hs
      have hlive : { s' with liveCount := w.state.liveCount } = s' := by rw [← loadSnapshot_live hs]
      show Sound { w with state := State.pollResults { s' with liveCount := w.state.liveCount } spawnOk, pending := none }
      rw [hlive]
      exact hload.inner (e := .poll spawnOk) rfl rfl

/-- What `install_guest_clipboard` does. -/
inductive Installed (s : State) (payload : ClipboardPayload) (newCount : Int) (ok : Bool) (current : Bool) : State → Prop
  | refused : current = false → Installed s payload newCount ok current s
  | unchanged {s' : State} : current = true → s.contents.isPayload payload = true →
      s' = ({ s with worker := s.worker.replacePending none }.resetRequests none) → Installed s payload newCount ok current s'
  | written {s' : State} : current = true → s.contents.isPayload payload = false → (payload.kind = .text ∨ ok = true) →
      s'.liveCount = newCount → s'.cachedCount = newCount → Faithful s'.contents (.of payload) →
      s'.offered = s.offered → s'.started = s.started → Installed s payload newCount ok current s'
  | failed {s' : State} : current = true → s.contents.isPayload payload = false → ok = false →
      s'.liveCount = newCount → s'.cachedCount = s.cachedCount → s'.offered = s.offered → s'.started = s.started →
      Installed s payload newCount ok current s'

theorem installed (s : State) (generation : Nat) (changeCount : Int) (payload : ClipboardPayload) (newCount : Int) (ok : Bool) :
    Installed s payload newCount ok ((HostImageToken.mk generation changeCount).sourceIsCurrent s.generation s.liveCount)
      (s.installGuestClipboard generation changeCount payload newCount ok) := by
  unfold State.installGuestClipboard
  cases hc : (HostImageToken.mk generation changeCount).sourceIsCurrent s.generation s.liveCount with
  | false => exact .refused rfl
  | true =>
    rw [Bool.not_true, if_neg Bool.false_ne_true]
    cases payload with
    | text text =>
      dsimp only
      split
      · next hsame => exact .unchanged rfl hsame rfl
      · next hdiffers =>
        have hdiffers : s.contents.matchesTextOnly text = false := Bool.eq_false_iff.2 hdiffers
        exact .written rfl hdiffers (.inl rfl) rfl rfl (faithful_fromSnapshot ⟨some text, .none⟩) rfl rfl
    | image image =>
      dsimp only
      split
      · next hsame => exact .unchanged rfl hsame rfl
      · next hdiffers =>
        have hdiffers : (s.contents.imagePng = some image && s.contents.text.isNone) = false := Bool.eq_false_iff.2 hdiffers
        split
        · next hok => exact .failed rfl hdiffers (by simpa using hok) rfl rfl rfl rfl
        · next hok =>
          exact .written rfl hdiffers (.inr (by simpa using hok)) rfl rfl (faithful_fromSnapshot ⟨none, .png image⟩) rfl rfl

/-- Of the other payloads none is of the newest copy. -/
theorem Sound.others (h : Sound w) (hr : r ∈ w.readings) (hnewest : r.copies = w.copies) :
    ∀ r' ∈ w.readings.erase r, r' ∈ w.readings ∧ r'.copies ≠ w.copies := by
  have hdistinct : w.readings.Nodup := h.distinct.of_map _
  intro r' hr'
  obtain ⟨hne, hmem⟩ := hdistinct.mem_erase_iff.1 hr'
  refine ⟨hmem, ?_⟩
  intro heq
  exact hne (List.inj_on_of_nodup_map h.distinct hmem hr (heq.trans hnewest.symm))

/-- The pasteboard was written: nothing else that is being read will be installed. -/
theorem Sound.written (h : Sound w) (hr : r ∈ w.readings) (hnewest : r.copies = w.copies)
    {pasteboard : Pasteboard} {newCount : Int} (hlt : w.state.liveCount < newCount) (hsound : HostImage.Sound s')
    (hlive : s'.liveCount = newCount) (hoffered : s'.offered = w.state.offered) (hstarted : s'.started = w.state.started)
    {delivered : Option ClipboardPayload}
    (hcached : s'.cachedCount = newCount ∧ Faithful s'.contents pasteboard ∧
        (∀ p, delivered = some p → pasteboard = .of p) ∨
      s'.cachedCount = w.state.cachedCount ∧ delivered = none) :
    Sound { w with state := s', pasteboard := pasteboard, readings := w.readings.erase r, delivered := delivered } := by
  have hothers := h.others hr hnewest
  have hold := h.cached
  refine ⟨hsound, ?_, ?_, h.distinct.sublist (List.erase_sublist.map _), ?_, ?_, ?_, ?_, ?_⟩
  · intro r' hr'
    obtain ⟨hcopies, hcount⟩ := h.older r' (hothers r' hr').1
    exact ⟨hcopies, by simp only [hlive]; omega⟩
  · intro hp r' hr'
    exact h.fresh hp r' (hothers r' hr').1
  · intro r' hr'
    obtain ⟨hmem, hne⟩ := hothers r' hr'
    have hcount := (h.older r' hmem).2
    rw [installs_iff]
    simp only [hlive]
    exact iff_of_false (fun hi => by omega) hne
  · rcases hcached with ⟨hc, -⟩ | ⟨hc, -⟩ <;> simp only [hc, hlive] <;> omega
  · intro job hjob
    simp only [hoffered, hstarted] at hjob
    have hcount := (h.jobs job hjob).1
    simp only [hlive]
    omega
  · rcases hcached with ⟨-, hf, -⟩ | ⟨hc, -⟩
    · exact fun _ => hf
    · intro heq
      simp only [hc, hlive] at heq
      omega
  · rcases hcached with ⟨hc, -, hp⟩ | ⟨-, hnone⟩
    · intro p hdelivered
      exact ⟨hp p hdelivered, hc.trans hlive.symm⟩
    · intro p hdelivered
      rw [show delivered = some p from hdelivered] at hnone
      cases hnone

theorem Sound.arrive (h : Sound w) {payload : ClipboardPayload} {newCount : Int} {ok : Bool}
    (hc : Careful w (.arrive r payload newCount ok)) (hs : w.arrive r payload newCount ok = some w') : Sound w' := by
  unfold World.arrive at hs
  split at hs
  case isFalse => cases hs
  case isTrue hguard =>
    obtain ⟨hr, -, hcount⟩ := hguard
    obtain rfl := Option.some.inj hs
    have hsound := h.state.installGuestClipboard r.generation r.changeCount payload newCount ok
    have hi := installed w.state r.generation r.changeCount payload newCount ok
    have hinstalls : (HostImageToken.mk r.generation r.changeCount).sourceIsCurrent w.state.generation w.state.liveCount =
        w.installs r := rfl
    rw [hinstalls] at hi
    have hnewest := h.newest r hr
    generalize w.state.installGuestClipboard r.generation r.changeCount payload newCount ok = s' at hsound hi
    unfold World.writes at hcount ⊢
    cases hi with
    | refused hno =>
      have hne : r.copies ≠ w.copies := fun heq => absurd (hnewest.2 heq) (by rw [hno]; exact Bool.false_ne_true)
      rw [if_neg hne, hno, Bool.false_and, if_neg Bool.false_ne_true]
      exact h.lose r
    | unchanged hyes hsame hstate =>
      have hcopies := hnewest.1 hyes
      obtain ⟨heq, htiff⟩ := (hc hyes).1 hsame
      have hheld := (h.faithful heq).payload hsame htiff
      have hlose := h.lose r
      rw [if_pos hcopies, hyes, hsame]
      subst hstate
      refine ⟨hsound, hlose.older, hlose.fresh, hlose.distinct, hlose.newest, h.cached, h.jobs, h.faithful, ?_⟩
      intro p hp
      obtain rfl := Option.some.inj hp
      exact ⟨hheld, heq⟩
    | written hyes hdiffers hok hlive hcached hf hoffered hstarted =>
      have hcopies := hnewest.1 hyes
      have hok : ok = true := hok.elim ((hc hyes).2 hdiffers) id
      rw [hyes, hdiffers] at hcount ⊢
      subst hok
      rw [if_pos hcopies]
      refine h.written hr hcopies (hcount rfl) hsound hlive hoffered hstarted (.inl ⟨hcached, hf, ?_⟩)
      intro p hp
      obtain rfl := Option.some.inj hp
      rfl
    | failed hyes hdiffers hok hlive hcached hoffered hstarted =>
      have hcopies := hnewest.1 hyes
      rw [hyes, hdiffers] at hcount ⊢
      subst hok
      rw [if_pos hcopies]
      exact h.written hr hcopies (hcount rfl) hsound hlive hoffered hstarted (.inr ⟨hcached, rfl⟩)

theorem Sound.step (h : Sound w) {m : Move} (hc : Careful w m) (hs : w.step m = some w') : Sound w' := by
  cases m with
  | copy pasteboard liveCount => exact h.copy hs
  | select mime =>
    obtain rfl := Option.some.inj hs
    exact h.select hc
  | request ok =>
    obtain rfl := Option.some.inj hs
    exact h.request ok
  | refresh spawnOk =>
    obtain rfl := Option.some.inj hs
    exact h.refresh hc
  | arrive r payload newCount ok => exact h.arrive hc hs
  | lose r =>
    obtain rfl := Option.some.inj hs
    exact h.lose r
  | inner e =>
    simp only [World.step] at hs
    split at hs
    · next he =>
      obtain ⟨s', hs', rfl⟩ := Option.map_eq_some_iff.1 hs
      exact h.inner he hs'
    · cases hs

end World

/-! ## What is kept -/

/-- What holds of a state reached by careful moves. -/
structure NewestKept (w : World) : Prop where
  /-- No copy was made since a payload that would be installed was requested. -/
  installed : ∀ r ∈ w.readings, w.installs r = true → r.copies = w.copies
  /-- The payload of the newest copy is what the pasteboard holds once it has arrived. -/
  arrives : ∀ r payload newCount ok w', Careful w (.arrive r payload newCount ok) →
    w.arrive r payload newCount ok = some w' → r.copies = w.copies → (w.writes r payload = true → ok = true) →
      w'.pasteboard = .of payload ∧ w'.delivered = some payload
  /-- It stays there until the next copy, and a refresh takes nothing over. -/
  held : ∀ p, w.delivered = some p → w.pasteboard = .of p ∧ ∀ text image, w.state.loadSnapshot text image = none

theorem sound_of_careful {w : World} (h : exchange.ReachableWhere Careful w) : w.Sound :=
  h.invariant World.Sound.init fun _ _ _ hi hc hs => hi.step hc hs

/-- In every run of careful moves the newest copy is kept. -/
theorem newest_kept {w : World} (h : exchange.ReachableWhere Careful w) : NewestKept w := by
  have hs := sound_of_careful h
  have hheld : ∀ {w' : World}, w'.Sound → ∀ p, w'.delivered = some p →
      w'.pasteboard = .of p ∧ ∀ text image, w'.state.loadSnapshot text image = none := by
    intro w' hs' p hp
    obtain ⟨hpasteboard, hcount⟩ := hs'.delivered p hp
    exact ⟨hpasteboard, World.loadSnapshot_none hcount.symm⟩
  refine ⟨fun r hr => (hs.newest r hr).1, ?_, hheld hs⟩
  intro r payload newCount ok w' hc harrive hcopies hok
  have hdelivered : w'.delivered = some payload := by
    unfold World.arrive at harrive
    split at harrive
    · obtain rfl := Option.some.inj harrive
      have hnofail : (w.writes r payload && !ok) = false := by
        cases hw : w.writes r payload with
        | false => rfl
        | true => rw [hok hw]; rfl
      dsimp only
      rw [hnofail, if_neg Bool.false_ne_true]
    · cases harrive
  exact ⟨(hheld (hs.arrive hc harrive) payload hdelivered).1, hdelivered⟩

instance (w : World) (m : Move) : Decidable (Careful w m) := by
  cases m <;> unfold Careful <;> infer_instance

/-- The host copies, a guest copies in turn, and its payload arrives and is installed. -/
theorem newest_kept_exchange : ∃ w, exchange.ReachableWhere Careful w ∧ NewestKept w ∧
    w.delivered = some (.text "guest") ∧ w.pasteboard = .of (.text "guest") := by
  have hrun : (exchange.runWhere (fun w m => Careful w m) exchange.init [.copy ⟨some "host", .none⟩ 1, .refresh true,
      .select (some .text), .request true, .arrive ⟨2, 1, .text, 2⟩ (.text "guest") 2 true]).any
        (fun w => w.delivered = some (.text "guest")) = true := by decide
  obtain ⟨w, hw, hp⟩ := System.exists_reachableWhere hrun
  have hw : exchange.ReachableWhere Careful w := hw.mono fun _ _ hc => of_decide_eq_true hc
  have hp := of_decide_eq_true hp
  have hkept := newest_kept hw
  exact ⟨w, hw, hkept, hp, (hkept.held _ hp).1⟩

/-- The host copies B, which is not polled yet, and a guest copies what the host had copied before: its payload is taken
for unchanged, B stays on the pasteboard, and the next refresh takes it over. -/
theorem unchanged_mistaken : ∃ w w' : World, exchange.Reachable w ∧
    w.arrive ⟨2, 2, .text, 3⟩ (.text "A") 3 true = some w' ∧ w.copies = 3 ∧ w.writes ⟨2, 2, .text, 3⟩ (.text "A") = false ∧
    w'.pasteboard = .of (.text "B") ∧ w'.delivered = some (.text "A") ∧
    (w'.refresh true).state.contents.text = some "B" := by
  have hrun : (exchange.run exchange.init [.copy (.of (.text "A")) 1, .refresh true, .copy (.of (.text "B")) 2,
      .select (some .text), .request true]).any (fun w => (w.arrive ⟨2, 2, .text, 3⟩ (.text "A") 3 true).any (fun w' =>
        w.copies = 3 && !w.writes ⟨2, 2, .text, 3⟩ (.text "A") && w'.pasteboard = .of (.text "B") &&
          w'.delivered = some (.text "A") && (w'.refresh true).state.contents.text = some "B")) = true := by decide
  obtain ⟨w, hw, hp⟩ := System.exists_reachable hrun
  cases harrive : w.arrive ⟨2, 2, .text, 3⟩ (.text "A") 3 true with
  | none =>
    rw [harrive] at hp
    cases hp
  | some w' =>
    rw [harrive, Option.any_some] at hp
    simp only [Bool.and_eq_true, decide_eq_true_eq, Bool.not_eq_true'] at hp
    obtain ⟨⟨⟨⟨hcopies, hwrites⟩, hpasteboard⟩, hdelivered⟩, hrefresh⟩ := hp
    exact ⟨w, w', hw, harrive, hcopies, hwrites, hpasteboard, hdelivered, hrefresh⟩

end CocoaWay.HostImage
