import CocoaWay.HostImage.Polls

/-!
# One conversion at a time, for the token asked for

* `Sound.step` : every handler and every step of the thread keeps `Sound`;
* `Guarantees` : what this means for jobs, completions, the recorded contents and the descriptors, in every state and
  for every event; `hostImage_guarantees`;
* `pending_lost` : a pending job whose start fails is gone.
-/

namespace CocoaWay.HostImage
open Lib

variable {s s' : State}

/-! ## The other handlers -/

theorem Sound.loadSnapshot (h : Sound s) {text : Option String} {image : CopiedImage}
    (hl : s.loadSnapshot text image = some s') : Sound s' := by
  unfold State.loadSnapshot at hl
  split at hl
  · cases hl
  · obtain rfl := Option.some.inj hl
    have hflight := h.flight.replacePending
    cases image with
    | none => exact ⟨hflight none, h.books.reset none, nofun, nofun, h.converted⟩
    | png image => exact ⟨hflight none, h.books.reset none, nofun, nofun, h.converted⟩
    | failed error => exact ⟨hflight none, h.books.reset none, nofun, nofun, h.converted⟩
    | tiff tiff => exact ⟨hflight (some _), h.books.reset (some _), fun t ht => Or.inl ht, fun job hj => hj,
      h.converted⟩

theorem Sound.newSelection (h : Sound s) : Sound s.newSelection :=
  ⟨h.flight.replacePending none, h.books.reset none, nofun, nofun, h.converted⟩

theorem Sound.installGuestClipboard (h : Sound s) (generation : Nat) (changeCount : Int) (payload : ClipboardPayload)
    (newCount : Int) (ok : Bool) : Sound (s.installGuestClipboard generation changeCount payload newCount ok) := by
  unfold State.installGuestClipboard
  split
  · exact h
  · have hreset : Sound (State.resetRequests { s with worker := s.worker.replacePending none } none) :=
      ⟨h.flight.replacePending none, h.books.reset none, nofun, nofun, h.converted⟩
    -- the rest touches the contents and the counts only
    cases payload with
    | text text =>
      dsimp only
      split
      · exact hreset
      · exact ⟨hreset.flight, hreset.books, hreset.served, hreset.newest, hreset.converted⟩
    | image image =>
      dsimp only
      split
      · exact hreset
      · split
        · exact ⟨hreset.flight, hreset.books, hreset.served, hreset.newest, hreset.converted⟩
        · exact ⟨hreset.flight, hreset.books, hreset.served, hreset.newest, hreset.converted⟩

theorem Sound.sendSelection (h : Sound s) (kind : MimeKind) {fd : Nat} {userData : HostImageToken}
    (hnew : (⟨fd, userData⟩ : Waiting) ∉ s.handed) : Sound (s.sendSelection kind fd userData) := by
  have hclosed : Sound (State.closeAll { s with handed := ⟨fd, userData⟩ :: s.handed } [⟨fd, userData⟩]) :=
    ⟨h.flight, h.books.answer (o := .closed ⟨fd, userData⟩) hnew nofun, h.served, h.newest, h.converted⟩
  unfold State.sendSelection
  dsimp only
  split
  · exact hclosed
  · split
    · cases hr : s.requests.retain userData ⟨fd, userData⟩ with
      | error error => exact hclosed
      | ok requests =>
        obtain ⟨hbooks, htoken⟩ := h.books.retain (w := ⟨fd, userData⟩) hnew hr
        exact ⟨h.flight, hbooks, fun t ht => h.served t (htoken ▸ ht), h.newest, h.converted⟩
    · split
      · next payload hp =>
        exact ⟨h.flight, h.books.answer (o := .served ⟨fd, userData⟩ payload) hnew nofun, h.served, h.newest,
          h.converted⟩
      · exact hclosed

/-! ## Every step -/

theorem threadStep_some {f : HostImageChannels → Option HostImageChannels} (hs : threadStep s f = some s') :
    ∃ ch ch', s.worker.worker = some ch ∧ f ch = some ch' ∧
      s' = { s with worker := { s.worker with worker := some ch' } } := by
  unfold threadStep at hs
  obtain ⟨ch, hch, hf⟩ := Option.bind_eq_some_iff.1 hs
  obtain ⟨ch', hch', rfl⟩ := Option.map_eq_some_iff.1 hf
  exact ⟨ch, ch', hch, hch', rfl⟩

variable {e : Event} {spawnOk : Bool} {job : HostImageJob}

theorem Sound.step (h : Sound s) (hs : step s e = some s') : Sound s' := by
  cases e with
  | load text image => exact h.loadSnapshot hs
  | poll spawnOk =>
    obtain rfl := Option.some.inj hs
    exact h.pollResults spawnOk
  | newSelection =>
    obtain rfl := Option.some.inj hs
    exact h.newSelection
  | installGuest generation changeCount payload newCount ok =>
    obtain rfl := Option.some.inj hs
    exact h.installGuestClipboard generation changeCount payload newCount ok
  | send kind fd userData =>
    simp only [HostImage.step] at hs
    split at hs
    · cases hs
    · next hnew =>
      obtain rfl := Option.some.inj hs
      refine h.sendSelection kind fun hm => hnew ?_
      exact List.any_eq_true.2 ⟨_, hm, decide_eq_true rfl⟩
  | hostCopy liveCount =>
    obtain rfl := Option.some.inj hs
    exact ⟨h.flight, h.books, h.served, h.newest, h.converted⟩
  | receive =>
    obtain ⟨ch, ch', hch, hr, rfl⟩ := threadStep_some hs
    exact ⟨h.flight.thread hch fun hsound => hsound.receive hr, h.books, h.served, h.newest, h.converted⟩
  | finish result =>
    obtain ⟨s₁, hs₁, rfl⟩ := Option.map_eq_some_iff.1 hs
    obtain ⟨ch, ch', hch, hf, rfl⟩ := threadStep_some hs₁
    obtain ⟨job, hthread, hjob, -⟩ := (h.flight.channels ch hch).finish hf
    simp only [hch, Option.map_some, hthread]
    refine ⟨h.flight.thread hch fun hsound => ?_, h.books.mono _, h.served, h.newest, fun c hm => ?_⟩
    · obtain ⟨job', hthread', -, hsound⟩ := hsound.finish hf
      obtain rfl := Thread.converting.inj (hthread.symm.trans hthread')
      exact hsound
    · rcases List.mem_cons.1 hm with rfl | hm
      · exact ⟨job, hjob, rfl⟩
      · exact h.converted c hm
  | exit =>
    obtain ⟨ch, ch', hch, hr, rfl⟩ := threadStep_some hs
    obtain rfl := Option.some.inj hr
    exact ⟨h.flight.thread hch fun hsound => hsound.exit, h.books, h.served, h.newest, h.converted⟩

theorem sound_of_reachable (h : system.Reachable s) : Sound s :=
  h.invariant Sound.init fun _ _ _ hi hs => hi.step hs

/-! ## What a step can do -/

/-- Events that supersede or cancel what is pending: a new snapshot, a new selection, and the copy of a guest. -/
def Event.resets (s : State) : Event → Bool
  | .load _ _ | .newSelection => true
  | .installGuest generation changeCount _ _ _ =>
    (HostImageToken.mk generation changeCount).sourceIsCurrent s.generation s.liveCount
  | _ => false

theorem closed_mem_reset (s : State) (token : Option HostImageToken) :
    ∀ w ∈ s.requests.fds, Outcome.closed w ∈ (s.resetRequests token).outcomes :=
  fun _ hw => List.mem_append_left _ (List.mem_map_of_mem hw)

/-- What a resetting step does with the descriptors and the jobs started. -/
structure Reset (s s' : State) : Prop where
  fds : s'.requests.fds = []
  closed : ∀ w ∈ s.requests.fds, Outcome.closed w ∈ s'.outcomes
  started : s'.started = s.started

theorem installGuestClipboard_reset {generation : Nat} {changeCount : Int} {payload : ClipboardPayload} {newCount : Int}
    {ok : Bool} (hc : (HostImageToken.mk generation changeCount).sourceIsCurrent s.generation s.liveCount = true) :
    Reset s (s.installGuestClipboard generation changeCount payload newCount ok) := by
  have hreset := closed_mem_reset { s with worker := s.worker.replacePending none } none
  unfold State.installGuestClipboard
  rw [hc, Bool.not_true, if_neg Bool.false_ne_true]
  cases payload with
  | text text =>
    dsimp only
    split
    · exact ⟨rfl, hreset, rfl⟩
    · exact ⟨rfl, hreset, rfl⟩
  | image image =>
    dsimp only
    split
    · exact ⟨rfl, hreset, rfl⟩
    · split
      · exact ⟨rfl, hreset, rfl⟩
      · exact ⟨rfl, hreset, rfl⟩

theorem step_reset (hs : step s e = some s') (hr : e.resets s = true) : Reset s s' := by
  cases e with
  | load text image =>
    have hl : s.loadSnapshot text image = some s' := hs
    unfold State.loadSnapshot at hl
    split at hl
    · cases hl
    · obtain rfl := Option.some.inj hl
      exact ⟨rfl, closed_mem_reset _ _, rfl⟩
  | newSelection =>
    obtain rfl := Option.some.inj hs
    exact ⟨rfl, closed_mem_reset _ none, rfl⟩
  | installGuest generation changeCount payload newCount ok =>
    obtain rfl := Option.some.inj hs
    exact installGuestClipboard_reset hr
  | _ => cases hr

/-- A step that neither polls nor resets leaves the jobs and the contents alone. -/
structure Quiet (s s' : State) : Prop where
  pending : s'.worker.pending = s.worker.pending
  started : s'.started = s.started
  contents : s'.contents = s.contents

theorem sendSelection_quiet (s : State) (kind : MimeKind) (fd : Nat) (userData : HostImageToken) :
    Quiet s (s.sendSelection kind fd userData) := by
  unfold State.sendSelection
  dsimp only
  split
  · exact ⟨rfl, rfl, rfl⟩
  · split
    · split
      · exact ⟨rfl, rfl, rfl⟩
      · exact ⟨rfl, rfl, rfl⟩
    · split
      · exact ⟨rfl, rfl, rfl⟩
      · exact ⟨rfl, rfl, rfl⟩

theorem step_cases (hs : step s e = some s') :
    (∃ spawnOk, e = .poll spawnOk ∧ s' = s.pollResults spawnOk) ∨ e.resets s = true ∨ Quiet s s' := by
  cases e with
  | poll spawnOk => exact Or.inl ⟨spawnOk, rfl, (Option.some.inj hs).symm⟩
  | load text image => exact Or.inr (Or.inl rfl)
  | newSelection => exact Or.inr (Or.inl rfl)
  | installGuest generation changeCount payload newCount ok =>
    right
    by_cases hc : (HostImageToken.mk generation changeCount).sourceIsCurrent s.generation s.liveCount = true
    · exact Or.inl hc
    · obtain rfl := Option.some.inj hs
      right
      unfold State.installGuestClipboard
      rw [Bool.not_eq_true] at hc
      rw [hc, Bool.not_false, if_pos rfl]
      exact ⟨rfl, rfl, rfl⟩
  | send kind fd userData =>
    simp only [HostImage.step] at hs
    split at hs
    · cases hs
    · obtain rfl := Option.some.inj hs
      exact Or.inr (Or.inr (sendSelection_quiet s kind fd userData))
  | hostCopy liveCount =>
    obtain rfl := Option.some.inj hs
    exact Or.inr (Or.inr ⟨rfl, rfl, rfl⟩)
  | receive =>
    obtain ⟨ch, ch', -, -, rfl⟩ := threadStep_some hs
    exact Or.inr (Or.inr ⟨rfl, rfl, rfl⟩)
  | finish result =>
    obtain ⟨s₁, hs₁, rfl⟩ := Option.map_eq_some_iff.1 hs
    obtain ⟨ch, ch', -, -, rfl⟩ := threadStep_some hs₁
    right
    right
    split
    · exact ⟨rfl, rfl, rfl⟩
    · exact ⟨rfl, rfl, rfl⟩
  | exit =>
    obtain ⟨ch, ch', -, -, rfl⟩ := threadStep_some hs
    exact Or.inr (Or.inr ⟨rfl, rfl, rfl⟩)

/-- A poll with nothing to do, or its three parts. -/
theorem pollResults_cases (h : Sound s) (spawnOk : Bool) :
    s.worker.pending = none ∧ s.worker.inFlight = none ∧ s.pollResults spawnOk = s ∨
      Polled s s.expire.receiveResult ∧ Next s.expire.receiveResult spawnOk (s.pollResults spawnOk) := by
  unfold State.pollResults
  by_cases hw : s.worker.hasWork = true
  · rw [if_pos hw]
    exact Or.inr ⟨polled h, startNext_next _ spawnOk⟩
  · rw [if_neg hw]
    unfold HostImageWorker.hasWork at hw
    simp only [Bool.or_eq_true, not_or, Option.not_isSome_iff_eq_none] at hw
    exact Or.inl ⟨hw.1, hw.2, rfl⟩

theorem Next.contents (h : Next s spawnOk s') : s'.contents = s.contents := by
  cases h with
  | _ => rfl

/-- Each poll that starts a job starts the pending one, while its snapshot is current. -/
theorem Next.started_cases (hn : Next s spawnOk s') (h : Sound s) :
    s'.started = s.started ∨ ∃ job, s.worker.pending = some job ∧ s.isCurrent job.token = true ∧
      s'.started = job :: s.started ∧ s'.worker.inFlight = some job.token := by
  cases hn with
  | @started job w hp hc hf hs => exact Or.inr ⟨job, hp, hc, rfl, ((h.flight.start hf hp hs).2.1 rfl).1⟩
  | _ => exact Or.inl rfl

theorem Next.pending_cases (hn : Next s spawnOk s') (h : Sound s) (hj : s.worker.pending = some job) :
    s'.worker.pending = some job ∨ s'.started = job :: s.started ∧ s'.worker.inFlight = some job.token ∨
      s'.worker.pending = none ∧ (s.isCurrent job.token = false ∨
        (s.worker.startPending spawnOk).2 ≠ .ok () ∧ s.worker.inFlight = none ∧ s'.worker.inFlight = none) := by
  cases hn with
  | idle hp => exact Or.inl hj
  | busy hp hc hf => exact Or.inl hj
  | superseded hp hc =>
    obtain rfl := Option.some.inj (hj.symm.trans hp)
    exact Or.inr (Or.inr ⟨rfl, Or.inl hc⟩)
  | started hp hc hf hs =>
    obtain rfl := Option.some.inj (hj.symm.trans hp)
    exact Or.inr (Or.inl ⟨rfl, ((h.flight.start hf hp hs).2.1 rfl).1⟩)
  | failed hp hc hf hs =>
    obtain ⟨hpending, -, herr⟩ := h.flight.start hf hp hs
    refine Or.inr (Or.inr ⟨hpending, Or.inr ⟨?_, hf, (herr nofun).1⟩⟩)
    rw [hs]
    exact nofun

theorem receiveResult_contents (s : State) :
    s.expire.receiveResult.contents = s.contents ∨ ∃ c w image, s.worker.poll = (some c, w) ∧
      s.isCurrent c.token = true ∧ c.result = .ok image ∧
      s.expire.receiveResult.contents = { s.contents with imagePng := image } := by
  have hw := expire_worker s
  have hfields : s.expire.contents = s.contents ∧ s.expire.generation = s.generation ∧
      s.expire.cachedCount = s.cachedCount ∧ s.expire.liveCount = s.liveCount := by
    rcases expire_cases s with ⟨he, -⟩ | ⟨he, -⟩
    · rw [he]
      exact ⟨rfl, rfl, rfl, rfl⟩
    · rw [he]
      exact ⟨rfl, rfl, rfl, rfl⟩
  obtain ⟨hcontents, hgeneration, hcached, hlive⟩ := hfields
  have hr := receiveResult_received s.expire
  generalize s.expire.receiveResult = s₂ at hr
  cases hr with
  | nothing hp => exact Or.inl hcontents
  | @result c w hp =>
    have hm := mergeImage_cases s.expire.contents c s.expire.generation s.expire.cachedCount s.expire.liveCount
    have hs : (State.settle { s.expire with worker := w } c).contents =
      (s.expire.contents.mergeImage c s.expire.generation s.expire.cachedCount s.expire.liveCount).1 := rfl
    rw [hs]
    rw [hcontents, hgeneration, hcached, hlive] at hm ⊢
    rcases hm with hm | ⟨hc, image, hr, hm⟩
    · exact Or.inl hm
    · exact Or.inr ⟨c, w, image, hw ▸ hp, hc, hr, hm⟩

/-- With a completion of the token waited for, or a snapshot superseded, nobody waits on. -/
theorem receiveResult_fds (h : Sound s) {w : Waiting} (hw : w ∈ s.requests.fds)
    (hc : s.isCurrent w.asked = false ∨ ∃ c worker, s.worker.poll = (some c, worker) ∧ c.token = w.asked) :
    s.expire.receiveResult.requests.fds = [] := by
  have htoken := h.books.asked w hw
  have hworker := expire_worker s
  have hr := receiveResult_received s.expire
  generalize s.expire.receiveResult = s₂ at hr
  have hfds : s.expire.requests.fds = [] ∨ s.expire = s ∧ s.isCurrent w.asked = true := by
    rcases expire_cases s with ⟨he, hcur⟩ | ⟨he, -⟩
    · exact Or.inr ⟨he, hcur _ htoken⟩
    · left
      rw [he]
      rfl
  cases hr with
  | nothing hp =>
    rcases hfds with hfds | ⟨-, hcur⟩
    · exact hfds
    · rcases hc with hc | ⟨c, worker, hpoll, -⟩
      · rw [hcur] at hc
        cases hc
      · rw [hworker, hpoll] at hp
        cases hp
  | @result c worker hp =>
    rw [settle_requests]
    change (s.expire.requests.take c.token).2.fds = []
    rcases take_cases s.expire.requests c.token with ⟨-, htake⟩ | ⟨hne, htake⟩
    · rw [htake]
    · rw [htake]
      rcases hfds with hfds | ⟨he, hcur⟩
      · exact hfds
      · rcases hc with hc | ⟨c', worker', hpoll, hasked⟩
        · rw [hcur] at hc
          cases hc
        · rw [hworker, hpoll] at hp
          obtain rfl := Option.some.inj (congrArg Prod.fst hp)
          rw [he, hasked] at hne
          exact absurd htoken hne

theorem Next.fds (h : Next s spawnOk s') (hs : s.requests.fds = []) : s'.requests.fds = [] := by
  cases h with
  | @failed job w error hp hc hf hst =>
    show (s.requests.take job.token).2.fds = []
    rcases take_cases s.requests job.token with ⟨-, htake⟩ | ⟨-, htake⟩
    · rw [htake]
    · rw [htake]
      exact hs
  | _ => exact hs

/-! ## What this means -/

structure Guarantees (s : State) : Prop where
  /-- All that is between the worker and its thread is the one job in flight, which was started. -/
  single : ∀ ch, s.worker.worker = some ch → ch.tasks.length ≤ 1 ∧ ∀ t ∈ ch.tasks, s.worker.inFlight = some t
  inFlight : ∀ t, s.worker.inFlight = some t → ∃ job ∈ s.started, job.token = t
  /-- The job started next is the pending one, which is the newest offered. -/
  started : ∀ e s', step s e = some s' → s'.started = s.started ∨ ∃ spawnOk job, e = .poll spawnOk ∧
    s.worker.pending = some job ∧ s.offered.head? = some job ∧ s.isCurrent job.token = true ∧
    s'.started = job :: s.started ∧ s'.worker.inFlight = some job.token
  /-- A poll starts it as soon as nothing else is in flight and there is a thread. -/
  starts : ∀ job, s.worker.pending = some job → s.isCurrent job.token = true →
    (s.worker.inFlight = none ∨ s.worker.poll.1.isSome = true) →
    (∀ ch, s.worker.worker = some ch → ch.thread ≠ .exited) → (s.pollResults true).started = job :: s.started
  /-- A pending job stays until it is started, superseded or cancelled, or its own start fails; then nobody waits. -/
  kept : ∀ e s' job, step s e = some s' → s.worker.pending = some job →
    s'.worker.pending = some job ∨ s'.started = job :: s.started ∧ s'.worker.inFlight = some job.token ∨
      e.resets s = true ∨ ∃ spawnOk, e = .poll spawnOk ∧ (s.isCurrent job.token = false ∨
        (spawnOk = false ∨ ∃ ch, s.worker.worker = some ch ∧ ch.thread = .exited) ∧ s'.requests.fds = [])
  /-- A completion is the one of the job in flight. -/
  completion : ∀ c w, s.worker.poll = (some c, w) →
    s.worker.inFlight = some c.token ∧ ∃ job ∈ s.started, job.token = c.token
  /-- A poll changes the recorded contents by a completion of the current snapshot only. -/
  contents : ∀ e s', step s e = some s' → s'.contents = s.contents ∨ e.resets s = true ∨
    ∃ spawnOk c w image, e = .poll spawnOk ∧ s.worker.poll = (some c, w) ∧ s.isCurrent c.token = true ∧
      c.result = .ok image ∧ s'.contents = { s.contents with imagePng := image }
  /-- A descriptor that waited got only an image converted for the token it asked for. -/
  sent : ∀ w t image, Outcome.sent w t image ∈ s.outcomes → t = w.asked ∧
    (⟨t, .ok (some image)⟩ : HostImageCompletion) ∈ s.finished ∧ ∃ job ∈ s.started, job.token = t
  /-- Every descriptor handed over is in one place: it waits, or it was answered or closed, once. -/
  custody : Custody (s.requests.fds ++ s.outcomes.map Outcome.fd) s.handed
  bounded : s.requests.fds.length ≤ Clipboard.MAX_TRANSFERS
  /-- What is waited for is pending or in flight. -/
  waiting : ∀ w ∈ s.requests.fds, s.worker.pendingToken = some w.asked ∨ s.worker.inFlight = some w.asked
  released : ∀ e s', step s e = some s' → e.resets s = true →
    s'.requests.fds = [] ∧ ∀ w ∈ s.requests.fds, Outcome.closed w ∈ s'.outcomes
  /-- A poll leaves nobody waiting for a superseded snapshot or for a conversion that is over. -/
  answered : ∀ w ∈ s.requests.fds, ∀ spawnOk, (s.isCurrent w.asked = false ∨ ∃ c worker,
    s.worker.poll = (some c, worker) ∧ c.token = w.asked) → (s.pollResults spawnOk).requests.fds = []

theorem Sound.single (h : Sound s) {ch : HostImageChannels} (hch : s.worker.worker = some ch) :
    ch.tasks.length ≤ 1 ∧ ∀ t ∈ ch.tasks, s.worker.inFlight = some t := by
  rcases (h.flight.channels ch hch).tasks with ht | ⟨-, ht⟩
  · rw [ht]
    cases s.worker.inFlight with
    | none => exact ⟨Nat.zero_le _, nofun⟩
    | some t =>
      refine ⟨Nat.le_refl _, fun t' ht' => ?_⟩
      rw [Option.toList_some, List.mem_singleton] at ht'
      exact congrArg some ht'.symm
  · rw [ht]
    exact ⟨Nat.zero_le _, nofun⟩

theorem Sound.waiting (h : Sound s) {w : Waiting} (hw : w ∈ s.requests.fds) :
    s.worker.pendingToken = some w.asked ∨ s.worker.inFlight = some w.asked :=
  h.served _ (h.books.asked w hw)

theorem Sound.fds_nil (h : Sound s) (hp : s.worker.pending = none) (hf : s.worker.inFlight = none) :
    s.requests.fds = [] := by
  apply List.eq_nil_iff_forall_not_mem.2
  intro w hw
  rcases h.waiting hw with hs | hs
  · unfold HostImageWorker.pendingToken at hs
    rw [hp] at hs
    cases hs
  · rw [hf] at hs
    cases hs

theorem Sound.started_cases (h : Sound s) (hs : HostImage.step s e = some s') :
    s'.started = s.started ∨ ∃ spawnOk job, e = .poll spawnOk ∧ s.worker.pending = some job ∧
      s.offered.head? = some job ∧ s.isCurrent job.token = true ∧ s'.started = job :: s.started ∧
      s'.worker.inFlight = some job.token := by
  rcases step_cases hs with ⟨spawnOk, rfl, rfl⟩ | hr | hq
  · rcases pollResults_cases h spawnOk with ⟨-, -, he⟩ | ⟨hp, hn⟩
    · rw [he]
      exact Or.inl rfl
    · rcases hn.started_cases hp.sound with he | ⟨job, hj, hc, he, hf⟩
      · exact Or.inl (he.trans hp.started)
      · have hj' := hp.pending.symm.trans hj
        exact Or.inr ⟨spawnOk, job, rfl, hj', h.newest job hj', (hp.current _).symm.trans hc, hp.started ▸ he, hf⟩
  · exact Or.inl (step_reset hs hr).started
  · exact Or.inl hq.started

theorem Sound.contents_cases (h : Sound s) (hs : HostImage.step s e = some s') :
    s'.contents = s.contents ∨ e.resets s = true ∨ ∃ spawnOk c w image, e = .poll spawnOk ∧
      s.worker.poll = (some c, w) ∧ s.isCurrent c.token = true ∧ c.result = .ok image ∧
      s'.contents = { s.contents with imagePng := image } := by
  rcases step_cases hs with ⟨spawnOk, rfl, rfl⟩ | hr | hq
  · rcases pollResults_cases h spawnOk with ⟨-, -, he⟩ | ⟨-, hn⟩
    · rw [he]
      exact Or.inl rfl
    · rw [hn.contents]
      rcases receiveResult_contents s with he | ⟨c, w, image, hp, hc, hr, he⟩
      · exact Or.inl he
      · exact Or.inr (Or.inr ⟨spawnOk, c, w, image, rfl, hp, hc, hr, he⟩)
  · exact Or.inr (Or.inl hr)
  · exact Or.inl hq.contents

theorem Sound.kept (h : Sound s) (hs : HostImage.step s e = some s') (hj : s.worker.pending = some job) :
    s'.worker.pending = some job ∨ s'.started = job :: s.started ∧ s'.worker.inFlight = some job.token ∨
      e.resets s = true ∨ ∃ spawnOk, e = .poll spawnOk ∧ (s.isCurrent job.token = false ∨
        (spawnOk = false ∨ ∃ ch, s.worker.worker = some ch ∧ ch.thread = .exited) ∧ s'.requests.fds = []) := by
  rcases step_cases hs with ⟨spawnOk, rfl, rfl⟩ | hr | hq
  · rcases pollResults_cases h spawnOk with ⟨hnone, -, -⟩ | ⟨hp, hn⟩
    · rw [hj] at hnone
      cases hnone
    · rcases hn.pending_cases hp.sound (hp.pending.trans hj) with hkept | ⟨hstarted, hf⟩ | ⟨hgone, hwhy⟩
      · exact Or.inl hkept
      · exact Or.inr (Or.inl ⟨hp.started ▸ hstarted, hf⟩)
      · refine Or.inr (Or.inr (Or.inr ⟨spawnOk, rfl, ?_⟩))
        rcases hwhy with hc | ⟨herr, hidle, hf⟩
        · exact Or.inl ((hp.current _).symm.trans hc)
        · refine Or.inr ⟨?_, (hn.sound hp.sound hp.waits).fds_nil hgone hf⟩
          cases spawnOk with
          | false => exact Or.inl rfl
          | true =>
            right
            by_contra hno
            refine herr (hp.sound.flight.start_ok hidle fun ch hch hthread => hno ?_)
            obtain ⟨ch', hch', he⟩ := hp.thread ch hch
            exact ⟨ch', hch', he.trans hthread⟩
  · exact Or.inr (Or.inr (Or.inl hr))
  · exact Or.inl (hq.pending.trans hj)

/-- What is in flight after the second part of a poll was in flight before, without a completion. -/
theorem receiveResult_idle (h : Sound s) (hp : s.worker.inFlight = none ∨ s.worker.poll.1.isSome = true) :
    s.expire.receiveResult.worker.inFlight = none := by
  have hw := expire_worker s
  have hr := receiveResult_received s.expire
  generalize s.expire.receiveResult = s₂ at hr
  cases hr with
  | nothing hpoll =>
    rw [hw] at hpoll ⊢
    rcases hp with hp | hp
    · exact hp
    · rw [hpoll] at hp
      cases hp
  | result hpoll => exact (h.expire.flight.poll hpoll).2.1

theorem Sound.starts (h : Sound s) (hj : s.worker.pending = some job)
    (hc : s.isCurrent job.token = true) (hidle : s.worker.inFlight = none ∨ s.worker.poll.1.isSome = true)
    (hthread : ∀ ch, s.worker.worker = some ch → ch.thread ≠ .exited) :
    (s.pollResults true).started = job :: s.started := by
  have hflight := receiveResult_idle h hidle
  rcases pollResults_cases h true with ⟨hnone, -, -⟩ | ⟨hp, hn⟩
  · rw [hj] at hnone
    cases hnone
  · have hpending := hp.pending.trans hj
    have hcurrent := (hp.current job.token).trans hc
    have hok := hp.sound.flight.start_ok hflight fun ch hch he => by
      obtain ⟨ch', hch', heq⟩ := hp.thread ch hch
      exact hthread ch' hch' (heq.trans he)
    rw [← hp.started]
    generalize s.pollResults true = s₃ at hn
    cases hn with
    | idle hnone =>
      rw [hpending] at hnone
      cases hnone
    | superseded hpend hno =>
      obtain rfl := Option.some.inj (hpending.symm.trans hpend)
      rw [hcurrent] at hno
      cases hno
    | busy _ _ hf =>
      rw [hflight] at hf
      cases hf
    | started hpend _ _ _ =>
      obtain rfl := Option.some.inj (hpending.symm.trans hpend)
      rfl
    | failed _ _ _ hs =>
      rw [hs] at hok
      cases hok

/-- For any order of handlers, host copies and steps of the worker thread. -/
theorem hostImage_guarantees {s : State} (h : system.Reachable s) : Guarantees s := by
  have hs := sound_of_reachable h
  refine ⟨fun ch hch => hs.single hch, hs.flight.started, fun e s' => hs.started_cases,
    fun job hj hc hidle hthread => ?_,
    fun e s' job => hs.kept, fun c w hp => ?_, fun e s' => hs.contents_cases, fun w t image hm => ?_, hs.books.custody,
    hs.books.bounded, fun w hw => hs.waiting hw, fun e s' hst hr => ?_, fun w hw spawnOk hc => ?_⟩
  · exact hs.starts hj hc hidle hthread
  · obtain ⟨hflight, -⟩ := hs.flight.poll hp
    exact ⟨hflight, hs.flight.started _ hflight⟩
  · obtain ⟨he, hfinished⟩ := hs.books.sent w t image hm
    exact ⟨he, hfinished, hs.converted _ hfinished⟩
  · have hreset := step_reset hst hr
    exact ⟨hreset.fds, hreset.closed⟩
  · have hfds := receiveResult_fds hs hw hc
    rcases pollResults_cases hs spawnOk with ⟨hpending, hflight, he⟩ | ⟨-, hn⟩
    · rw [he]
      exact hs.fds_nil hpending hflight
    · exact hn.fds hfds

/-- A client waits for an image whose conversion is started, while the host copies the next one. -/
theorem hostImage_guarantees_waiting : ∃ s, system.Reachable s ∧ Guarantees s ∧ s.worker.pending.isSome = true ∧
    s.worker.inFlight.isSome = true ∧ s.requests.fds.length = 1 := by
  have hrun : (system.run system.init [.hostCopy 7, .load (some "T") (.tiff [1]), .poll true, .receive, .hostCopy 8,
      .load none (.tiff [2]), .send .image 0 ⟨2, 8⟩]).any (fun s => s.worker.pending.isSome &&
        s.worker.inFlight.isSome && s.requests.fds.length = 1) = true := by decide
  obtain ⟨s, hs, hp⟩ := System.exists_reachable hrun
  simp only [Bool.and_eq_true, decide_eq_true_eq] at hp
  exact ⟨s, hs, hostImage_guarantees hs, hp.1.1, hp.1.2, hp.2⟩

/-- The start of a current job fails with nothing in flight: the job is gone, and was never started. -/
theorem pending_lost : ∃ s s' job, system.Reachable s ∧ step s (.poll false) = some s' ∧
    s.worker.pending = some job ∧ s.isCurrent job.token = true ∧ s'.isCurrent job.token = true ∧
    s'.worker.pending = none ∧ s'.worker.inFlight = none ∧ s'.started = [] := by
  have hrun : (system.run system.init [.hostCopy 7, .load none (.tiff [1])]).any (fun s =>
      s.worker.pending = some ⟨⟨1, 7⟩, [1]⟩ && s.isCurrent ⟨1, 7⟩ && (s.pollResults false).isCurrent ⟨1, 7⟩ &&
        (s.pollResults false).worker.pending = none && (s.pollResults false).worker.inFlight = none &&
        (s.pollResults false).started = []) = true := by decide
  obtain ⟨s, hs, hp⟩ := System.exists_reachable hrun
  simp only [Bool.and_eq_true, decide_eq_true_eq] at hp
  obtain ⟨⟨⟨⟨⟨hpending, hc⟩, hc'⟩, hp'⟩, hf'⟩, hst'⟩ := hp
  exact ⟨s, _, _, hs, rfl, hpending, hc, hc', hp', hf', hst'⟩

end CocoaWay.HostImage
