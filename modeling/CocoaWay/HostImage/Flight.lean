import CocoaWay.HostImage.Basic

/-!
# The conversion in flight

* `HostImageChannels.work`, `HostImageChannels.tasks` : the jobs and the tokens between the worker and its thread;
* `HostImageChannels.Sound` : they are at most the one job in flight, started before, and each result was finished;
* `Flight` : the same of the worker with its thread, and what its steps keep: `Flight.poll`, `Flight.start`,
  `Flight.thread`.
-/

namespace CocoaWay.HostImage

/-! ## The channels -/

namespace HostImageChannels

/-- The jobs with the thread or on their way to it. -/
def work (ch : HostImageChannels) : List HostImageJob :=
  (match ch.thread with
    | .converting job => [job]
    | _ => []) ++ ch.jobs

/-- The tokens of all that is between the worker and its thread. -/
def tasks (ch : HostImageChannels) : List HostImageToken :=
  ch.work.map HostImageJob.token ++ ch.results.map HostImageCompletion.token

/-- What the channels hold while `inFlight` is the conversion in flight. -/
structure Sound (ch : HostImageChannels) (inFlight : Option HostImageToken) (started : List HostImageJob)
    (finished : List HostImageCompletion) : Prop where
  tasks : ch.tasks = inFlight.toList ∨ ch.thread = .exited ∧ ch.tasks = []
  jobs : ch.thread = .exited → ch.jobs = []
  work : ∀ job ∈ ch.work, job ∈ started
  results : ∀ c ∈ ch.results, c ∈ finished

variable {ch ch' : HostImageChannels} {inFlight : Option HostImageToken} {started : List HostImageJob}
  {finished : List HostImageCompletion} {job : HostImageJob}

theorem Sound.idle (h : ch.Sound none started finished) : ch.work = [] ∧ ch.results = [] := by
  have ht : ch.tasks = [] := by
    rcases h.tasks with ht | ⟨-, ht⟩
    · exact ht
    · exact ht
  unfold HostImageChannels.tasks at ht
  rw [List.append_eq_nil_iff, List.map_eq_nil_iff, List.map_eq_nil_iff] at ht
  exact ht

theorem Sound.new : ({} : HostImageChannels).Sound none started finished :=
  ⟨Or.inl rfl, fun _ => rfl, nofun, nofun⟩

theorem Sound.trySend (h : ch.Sound none started finished) (hs : ch.trySend job = some ch') :
    ch'.Sound (some job.token) (job :: started) finished := by
  obtain ⟨hwork, hresults⟩ := h.idle
  unfold HostImageChannels.trySend at hs
  split at hs
  · cases hs
  · next hfree =>
    obtain rfl := Option.some.inj hs
    have hthread : ch.thread ≠ .exited := fun he => hfree (Or.inl he)
    have hw : HostImageChannels.work { ch with jobs := ch.jobs ++ [job] } = [job] := by
      show _ ++ (ch.jobs ++ [job]) = [job]
      rw [← List.append_assoc]
      exact congrArg (· ++ [job]) hwork
    refine ⟨Or.inl ?_, fun he => absurd he hthread, fun j hj => ?_, h.results⟩
    · unfold HostImageChannels.tasks
      rw [hw, hresults]
      rfl
    · rw [hw, List.mem_singleton] at hj
      exact hj ▸ List.mem_cons_self

theorem Sound.trySend_isSome (h : ch.Sound none started finished) (hthread : ch.thread ≠ .exited) :
    (ch.trySend job).isSome = true := by
  have hjobs : ch.jobs = [] := (List.append_eq_nil_iff.1 h.idle.1).2
  unfold HostImageChannels.trySend
  rw [if_neg]
  · rfl
  · rintro (he | hl)
    · exact hthread he
    · simp [hjobs] at hl

theorem Sound.receive (h : ch.Sound inFlight started finished) (hr : ch.receive = some ch') :
    ch'.Sound inFlight started finished := by
  unfold HostImageChannels.receive at hr
  split at hr
  · next job jobs hthread hjobs =>
    obtain rfl := Option.some.inj hr
    have hw : HostImageChannels.work { ch with jobs := jobs, thread := .converting job } = ch.work := by
      simp [HostImageChannels.work, hthread, hjobs]
    refine ⟨Or.inl ?_, nofun, fun j hj => h.work j (hw ▸ hj), h.results⟩
    rcases h.tasks with ht | ⟨he, -⟩
    · rw [← ht]
      unfold HostImageChannels.tasks
      rw [hw]
    · rw [hthread] at he
      cases he
  · cases hr

/-- The conversion that finishes is the one in flight. -/
theorem Sound.finish (h : ch.Sound inFlight started finished) {result : HostImageResult}
    (hf : ch.finish result = some ch') :
    ∃ job, ch.thread = .converting job ∧ job ∈ started ∧
      ch'.Sound inFlight started (⟨job.token, result⟩ :: finished) := by
  unfold HostImageChannels.finish at hf
  split at hf
  · next job hthread =>
    split at hf
    · obtain rfl := Option.some.inj hf
      have hw : ch.work = job :: ch.jobs := by simp [HostImageChannels.work, hthread]
      have ht : ch.tasks = inFlight.toList := by
        rcases h.tasks with ht | ⟨he, -⟩
        · exact ht
        · rw [hthread] at he
          cases he
      have hone : ch.jobs = [] ∧ ch.results = [] ∧ inFlight = some job.token := by
        unfold HostImageChannels.tasks at ht
        rw [hw, List.map_cons, List.cons_append] at ht
        cases inFlight with
        | none => cases ht
        | some t =>
          rw [Option.toList_some, List.cons.injEq, List.append_eq_nil_iff, List.map_eq_nil_iff,
            List.map_eq_nil_iff] at ht
          exact ⟨ht.2.1, ht.2.2, congrArg some ht.1.symm⟩
      obtain ⟨hjobs, hresults, hflight⟩ := hone
      refine ⟨job, hthread, h.work job (hw ▸ List.mem_cons_self), Or.inl ?_, nofun, ?_, ?_⟩
      · simp [HostImageChannels.tasks, HostImageChannels.work, hjobs, hresults, hflight]
      · simp [HostImageChannels.work, hjobs]
      · simp [hresults]
    · cases hf
  · cases hf

theorem Sound.exit (h : ch.Sound inFlight started finished) : ch.exit.Sound inFlight started finished := by
  refine ⟨?_, fun _ => rfl, nofun, h.results⟩
  have htasks : ch.exit.tasks = ch.results.map HostImageCompletion.token := rfl
  rw [htasks]
  rcases h.tasks with ht | ⟨-, ht⟩
  · unfold HostImageChannels.tasks at ht
    cases hw : ch.work with
    | nil =>
      rw [hw] at ht
      exact Or.inl ht
    | cons job work =>
      right
      rw [hw, List.map_cons, List.cons_append] at ht
      cases inFlight with
      | none => cases ht
      | some t =>
        rw [Option.toList_some, List.cons.injEq, List.append_eq_nil_iff] at ht
        exact ⟨rfl, ht.2.2⟩
  · unfold HostImageChannels.tasks at ht
    exact Or.inr ⟨rfl, (List.append_eq_nil_iff.1 ht).2⟩

end HostImageChannels

/-! ## The worker -/

/-- One conversion at most is in flight, a job that was started. -/
structure Flight (w : HostImageWorker) (started : List HostImageJob) (finished : List HostImageCompletion) : Prop where
  worker : w.inFlight.isSome = true → w.worker.isSome = true
  channels : ∀ ch, w.worker = some ch → ch.Sound w.inFlight started finished
  started : ∀ t, w.inFlight = some t → ∃ job ∈ started, job.token = t

variable {w w' : HostImageWorker} {started : List HostImageJob} {finished : List HostImageCompletion}

theorem Flight.init : Flight {} [] [] :=
  ⟨nofun, nofun, nofun⟩

theorem Flight.replacePending (h : Flight w started finished) (image : Option (HostImageToken × Bytes)) :
    Flight (w.replacePending image) started finished :=
  ⟨h.worker, h.channels, h.started⟩

theorem poll_none (hp : w.poll = (none, w')) : w' = w := by
  unfold HostImageWorker.poll at hp
  split at hp
  · split at hp
    · cases hp
    · split at hp
      · cases hp
      · cases hp
        rfl
  · cases hp
    rfl

/-- A poll hands out the completion of the conversion in flight, which is over then. -/
theorem Flight.poll (h : Flight w started finished) {c : HostImageCompletion} (hp : w.poll = (some c, w')) :
    w.inFlight = some c.token ∧ w'.inFlight = none ∧ w'.pending = w.pending ∧
      (c ∈ finished ∨ ∃ error, c.result = .error error) ∧ Flight w' started finished := by
  unfold HostImageWorker.poll at hp
  split at hp
  · next t ch hflight hch =>
    have hsound := h.channels ch hch
    split at hp
    · next completion results hresults =>
      cases hp
      have ht : c.token = t ∧ ch.work = [] ∧ results = [] := by
        have htasks := hsound.tasks
        unfold HostImageChannels.tasks at htasks
        rw [hresults, List.map_cons, hflight] at htasks
        rcases htasks with ht | ⟨-, ht⟩
        · cases hw : ch.work with
          | nil =>
            rw [hw] at ht
            rw [List.map_nil, List.nil_append, Option.toList_some, List.cons.injEq, List.map_eq_nil_iff] at ht
            exact ⟨ht.1, rfl, ht.2⟩
          | cons job work =>
            rw [hw] at ht
            simp at ht
        · simp at ht
      obtain ⟨rfl, hwork, rfl⟩ := ht
      refine ⟨hflight, rfl, rfl, Or.inl (hsound.results _ (hresults ▸ List.mem_cons_self)), nofun, ?_, nofun⟩
      rintro _ ⟨rfl⟩
      refine ⟨Or.inl ?_, hsound.jobs, hsound.work, nofun⟩
      show HostImageChannels.tasks { ch with results := [] } = []
      have hw : HostImageChannels.work { ch with results := [] } = ch.work := rfl
      simp [HostImageChannels.tasks, hw, hwork]
    · split at hp
      · cases hp
        exact ⟨hflight, rfl, rfl, Or.inr ⟨_, rfl⟩, nofun, nofun, nofun⟩
      · cases hp
  · cases hp

/-- With nothing in flight, a start takes the pending job, whether it succeeds or fails. -/
theorem Flight.start (h : Flight w started finished) (hidle : w.inFlight = none) {job : HostImageJob}
    (hpending : w.pending = some job) {spawnOk : Bool} {result : Except String Unit}
    (hs : w.startPending spawnOk = (w', result)) :
    w'.pending = none ∧
      (result = .ok () → w'.inFlight = some job.token ∧ Flight w' (job :: started) finished) ∧
      (result ≠ .ok () → w'.inFlight = none ∧ Flight w' started finished) := by
  have hchannels : ∀ ch, w.worker = some ch → ch.Sound none started finished := by
    intro ch hw
    exact hidle ▸ h.channels ch hw
  have hch : (w.worker.getD {}).Sound none started finished := by
    cases hw : w.worker with
    | none => exact HostImageChannels.Sound.new
    | some ch => exact hchannels ch hw
  unfold HostImageWorker.startPending at hs
  simp only [hidle, hpending, Option.isSome_none, Bool.false_eq_true, if_false] at hs
  split at hs
  · cases hs
    exact ⟨rfl, nofun, fun _ => ⟨rfl, nofun, hchannels, nofun⟩⟩
  · split at hs
    · next ch hsend =>
      cases hs
      refine ⟨rfl, fun _ => ⟨rfl, fun _ => rfl, ?_, ?_⟩, fun hne => absurd rfl hne⟩
      · rintro _ ⟨rfl⟩
        exact hch.trySend hsend
      · rintro _ ⟨rfl⟩
        exact ⟨job, List.mem_cons_self, rfl⟩
    · cases hs
      exact ⟨rfl, nofun, fun _ => ⟨rfl, nofun, nofun, nofun⟩⟩

/-- A start succeeds when a thread can be spawned and the one there has not exited. -/
theorem Flight.start_ok (h : Flight w started finished) (hidle : w.inFlight = none)
    (hthread : ∀ ch, w.worker = some ch → ch.thread ≠ .exited) : (w.startPending true).2 = .ok () := by
  unfold HostImageWorker.startPending
  simp only [hidle, Option.isSome_none, Bool.false_eq_true, if_false, Bool.not_true, Bool.and_false]
  cases w.pending with
  | none => rfl
  | some job =>
    dsimp only
    have hsend : ((w.worker.getD {}).trySend job).isSome = true := by
      cases hw : w.worker with
      | none => rfl
      | some ch =>
        have hsound := h.channels ch hw
        rw [hidle] at hsound
        exact hsound.trySend_isSome (hthread ch hw)
    obtain ⟨ch, hch⟩ := Option.isSome_iff_exists.1 hsend
    rw [hch]

/-- A step of the thread that keeps the channels sound. -/
theorem Flight.thread (h : Flight w started finished) {finished' : List HostImageCompletion}
    {ch ch' : HostImageChannels}
    (hch : w.worker = some ch)
    (hs : ch.Sound w.inFlight started finished → ch'.Sound w.inFlight started finished') :
    Flight { w with worker := some ch' } started finished' := by
  refine ⟨fun _ => rfl, ?_, h.started⟩
  rintro _ ⟨rfl⟩
  exact hs (h.channels ch hch)

end CocoaWay.HostImage
