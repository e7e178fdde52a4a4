import CocoaWay.HostImage.Flight
import CocoaWay.Lib.Custody

/-!
# Polls of the host clipboard images

* `Books` : where every descriptor is, and what the waiting ones wait for; `Books.release`, `Books.retain`;
* `Sound` : the books, the conversion in flight, and a job for every token waited for;
* `Received`, `Next` : what a poll does with a completion and with the pending job; `Sound.pollResults`.
-/

namespace CocoaWay.HostImage
open Lib

/-! ## Descriptors -/

/-- Every descriptor handed over waits, or was answered once; those that wait ask for the token of the requests. -/
structure Books (r : PendingHostImageRequests) (outcomes : List Outcome) (handed : List Waiting)
    (finished : List HostImageCompletion) : Prop where
  asked : ∀ w ∈ r.fds, r.token = some w.asked
  bounded : r.fds.length ≤ Clipboard.MAX_TRANSFERS
  custody : Custody (r.fds ++ outcomes.map Outcome.fd) handed
  sent : ∀ w t image, Outcome.sent w t image ∈ outcomes →
    t = w.asked ∧ (⟨t, .ok (some image)⟩ : HostImageCompletion) ∈ finished

section
variable {r : PendingHostImageRequests} {outcomes : List Outcome} {handed : List Waiting}
  {finished : List HostImageCompletion}

theorem Books.mono (h : Books r outcomes handed finished) (c : HostImageCompletion) :
    Books r outcomes handed (c :: finished) :=
  ⟨h.asked, h.bounded, h.custody, fun w t image hm =>
    ⟨(h.sent w t image hm).1, List.mem_cons_of_mem _ (h.sent w t image hm).2⟩⟩

theorem Books.release (h : Books r outcomes handed finished) {f : Waiting → Outcome} (token : Option HostImageToken)
    (hfd : ∀ w, (f w).fd = w)
    (hsent : ∀ w ∈ r.fds, ∀ w' t image, f w = .sent w' t image →
      t = w'.asked ∧ (⟨t, .ok (some image)⟩ : HostImageCompletion) ∈ finished) :
    Books { token := token, fds := [] } (r.fds.map f ++ outcomes) handed finished := by
  refine ⟨nofun, Nat.zero_le _, ?_, ?_⟩
  · have hmap : (r.fds.map f).map Outcome.fd = r.fds := by
      rw [List.map_map]
      exact (List.map_congr_left fun w _ => hfd w).trans (List.map_id _)
    rw [List.map_append, hmap]
    exact h.custody
  · intro w t image hm
    rcases List.mem_append.1 hm with hm | hm
    · obtain ⟨w', hw', he⟩ := List.mem_map.1 hm
      exact hsent w' hw' w t image he
    · exact h.sent w t image hm

theorem Books.retain (h : Books r outcomes handed finished) {w : Waiting} (hnew : w ∉ handed)
    {r' : PendingHostImageRequests} (hr : r.retain w.asked w = .ok r') :
    Books r' outcomes (w :: handed) finished ∧ r'.token = r.token := by
  unfold PendingHostImageRequests.retain at hr
  split at hr
  · cases hr
  · next htoken =>
    split at hr
    · cases hr
    · next hfull =>
      cases hr
      have htoken := not_not.1 htoken
      refine ⟨⟨?_, ?_, h.custody.issue hnew ?_, h.sent⟩, rfl⟩
      · intro w' hw'
        rcases List.mem_append.1 hw' with hm | hm
        · exact h.asked w' hm
        · rw [List.mem_singleton] at hm
          exact hm ▸ htoken
      · rw [List.length_append, List.length_singleton]
        omega
      · rw [List.append_assoc, List.singleton_append]
        exact List.perm_middle

/-- A new descriptor is answered at once, by other means than a conversion. -/
theorem Books.answer (h : Books r outcomes handed finished) {o : Outcome} (hnew : o.fd ∉ handed)
    (hs : ∀ w t image, o ≠ .sent w t image) : Books r (o :: outcomes) (o.fd :: handed) finished := by
  refine ⟨h.asked, h.bounded, h.custody.issue hnew ?_, ?_⟩
  · rw [List.map_cons]
    exact List.perm_middle
  · intro w t image hm
    rcases List.mem_cons.1 hm with rfl | hm
    · exact absurd rfl (hs w t image)
    · exact h.sent w t image hm

end

/-! ## The state -/

structure Sound (s : State) : Prop where
  flight : Flight s.worker s.started s.finished
  books : Books s.requests s.outcomes s.handed s.finished
  /-- A token waited for has a job. -/
  served : ∀ t, s.requests.token = some t → s.worker.pendingToken = some t ∨ s.worker.inFlight = some t
  newest : ∀ job, s.worker.pending = some job → s.offered.head? = some job
  converted : ∀ c ∈ s.finished, ∃ job ∈ s.started, job.token = c.token

variable {s s' : State}

theorem Sound.init : Sound {} :=
  ⟨Flight.init, ⟨nofun, Nat.zero_le _, Custody.nil, nofun⟩, nofun, nofun, nofun⟩

theorem closed_ne_sent (w w' : Waiting) (t : HostImageToken) (image : Bytes) :
    Outcome.closed w = .sent w' t image → False := nofun

theorem Books.reset {r : PendingHostImageRequests} {outcomes : List Outcome} {handed : List Waiting}
    {finished : List HostImageCompletion} (h : Books r outcomes handed finished) (token : Option HostImageToken) :
    Books (r.reset token).2 ((r.reset token).1.map Outcome.closed ++ outcomes) handed finished :=
  h.release token (fun _ => rfl) fun w _ w' t image he => (closed_ne_sent w w' t image he).elim

theorem Sound.reset (h : Sound s) : Sound (s.resetRequests none) :=
  ⟨h.flight, h.books.reset none, nofun, h.newest, h.converted⟩

/-- The requests for the token are all taken, or none. -/
theorem take_cases (r : PendingHostImageRequests) (token : HostImageToken) :
    r.token = some token ∧ r.take token = (r.fds, { token := none, fds := [] }) ∨
      r.token ≠ some token ∧ r.take token = ([], r) := by
  unfold PendingHostImageRequests.take
  by_cases h : r.token = some token
  · exact Or.inl ⟨h, if_neg (not_not.2 h)⟩
  · exact Or.inr ⟨h, if_pos h⟩

theorem expire_cases (s : State) :
    s.expire = s ∧ (∀ t, s.requests.token = some t → s.isCurrent t = true) ∨
      s.expire = s.resetRequests none ∧ ∃ t, s.requests.token = some t ∧ s.isCurrent t = false := by
  unfold State.expire
  by_cases h : (s.requests.token.any fun token => !s.isCurrent token) = true
  · rw [if_pos h]
    obtain ⟨t, ht, hc⟩ := (Option.any_eq_true _ _).1 h
    exact Or.inr ⟨rfl, t, ht, by simpa using hc⟩
  · rw [if_neg h]
    refine Or.inl ⟨rfl, fun t ht => ?_⟩
    rw [ht] at h
    simpa using h

theorem Sound.expire (h : Sound s) : Sound s.expire := by
  rcases expire_cases s with ⟨he, -⟩ | ⟨he, -⟩
  · rw [he]
    exact h
  · rw [he]
    exact h.reset

theorem expire_current (s : State) : ∀ t, s.expire.requests.token = some t → s.isCurrent t = true := by
  rcases expire_cases s with ⟨he, hc⟩ | ⟨he, -⟩
  · rw [he]
    exact hc
  · rw [he]
    exact nofun

theorem expire_worker (s : State) : s.expire.worker = s.worker := by
  rcases expire_cases s with ⟨he, -⟩ | ⟨he, -⟩
  · rw [he]
  · rw [he]
    rfl

/-! ## A completion -/

variable {c : HostImageCompletion}

theorem mergeImage_ok {contents : HostClipboardContents} {generation : Nat}
    {cachedCount liveCount : Int} {image : Option Bytes}
      (hc : c.token.isCurrent generation cachedCount liveCount = true)
    (hr : c.result = .ok image) :
    (contents.mergeImage c generation cachedCount liveCount).1 = { contents with imagePng := image } := by
  unfold HostClipboardContents.mergeImage
  rw [if_pos hc, hr]

theorem mergeImage_cases (contents : HostClipboardContents) (c : HostImageCompletion) (generation : Nat)
    (cachedCount liveCount : Int) :
    (contents.mergeImage c generation cachedCount liveCount).1 = contents ∨
      c.token.isCurrent generation cachedCount liveCount = true ∧ ∃ image, c.result = .ok image ∧
        (contents.mergeImage c generation cachedCount liveCount).1 = { contents with imagePng := image } := by
  by_cases hc : c.token.isCurrent generation cachedCount liveCount = true
  · cases hr : c.result with
    | error error =>
      left
      unfold HostClipboardContents.mergeImage
      rw [if_pos hc, hr]
    | ok image => exact Or.inr ⟨hc, image, rfl, mergeImage_ok hc hr⟩
  · left
    unfold HostClipboardContents.mergeImage
    rw [if_neg hc]

theorem answer_fd (s : State) (c : HostImageCompletion) (contents : HostClipboardContents) (w : Waiting) :
    (s.answer c contents w).fd = w := by
  unfold State.answer
  split
  · split
    · rfl
    · rfl
  · rfl

/-- What is sent is the image of the completion. -/
theorem answer_sent {w w' : Waiting} {t : HostImageToken} {image : Bytes}
    (h : s.answer c (s.contents.mergeImage c s.generation s.cachedCount s.liveCount).1 w = .sent w' t image) :
    w' = w ∧ t = c.token ∧ c.result = .ok (some image) := by
  unfold State.answer at h
  split at h
  · next hc =>
    rw [Bool.and_eq_true] at hc
    cases hr : c.result with
    | error error =>
      have himage := hc.2
      simp [HostImageCompletion.hasImage, hr] at himage
    | ok image' =>
      rw [mergeImage_ok hc.1 hr] at h
      cases image' with
      | none => cases h
      | some image' =>
        cases h
        exact ⟨rfl, rfl, rfl⟩
  · cases h

/-- What the second part of a poll does: nothing, or it takes the completion of the conversion in flight. -/
inductive Received (s : State) : State → Prop
  | nothing : s.worker.poll.1 = none → Received s s
  | result {c : HostImageCompletion} {w : HostImageWorker} :
      s.worker.poll = (some c, w) → Received s (State.settle { s with worker := w } c)

theorem receiveResult_received (s : State) : Received s s.receiveResult := by
  unfold State.receiveResult
  split
  · next c w hp => exact .result hp
  · next w hp =>
    rw [poll_none hp]
    exact .nothing (congrArg Prod.fst hp)

theorem settle_requests (s : State) (c : HostImageCompletion) :
    (s.settle c).requests = (s.requests.take c.token).2 := rfl

theorem Sound.settle (h : Sound s) {w : HostImageWorker}
    (hp : s.worker.poll = (some c, w)) : Sound (State.settle { s with worker := w } c) := by
  obtain ⟨hflight, -, hpending, hfinished, hw⟩ := h.flight.poll hp
  have hnewest : ∀ job, w.pending = some job → s.offered.head? = some job := by
    intro job hj
    exact h.newest job (hpending ▸ hj)
  rcases take_cases s.requests c.token with ⟨htoken, htake⟩ | ⟨htoken, htake⟩
  · refine ⟨hw, ?_, ?_, hnewest, h.converted⟩
    · show Books (s.requests.take c.token).2 ((s.requests.take c.token).1.map _ ++ s.outcomes) s.handed s.finished
      rw [htake]
      refine h.books.release none (answer_fd _ c _) ?_
      intro v hv v' t image he
      obtain ⟨rfl, rfl, hr⟩ := answer_sent (s := { s with worker := w }) he
      refine ⟨Option.some.inj (htoken.symm.trans (h.books.asked v' hv)), ?_⟩
      rcases hfinished with hm | ⟨error, he⟩
      · rw [← hr]
        exact hm
      · rw [hr] at he
        cases he
    · intro t ht
      rw [settle_requests, htake] at ht
      cases ht
  · refine ⟨hw, ?_, ?_, hnewest, h.converted⟩
    · show Books (s.requests.take c.token).2 ((s.requests.take c.token).1.map _ ++ s.outcomes) s.handed s.finished
      rw [htake]
      exact h.books
    · intro t ht
      rw [settle_requests, htake] at ht
      have hne : t ≠ c.token := fun he => htoken (he ▸ ht)
      rcases h.served t ht with hs | hs
      · left
        show w.pending.map HostImageJob.token = some t
        rw [hpending]
        exact hs
      · rw [hflight] at hs
        exact absurd (Option.some.inj hs).symm hne

/-- What the first two parts of a poll leave alone. -/
structure Polled (s s' : State) : Prop where
  sound : Sound s'
  pending : s'.worker.pending = s.worker.pending
  started : s'.started = s.started
  current : ∀ t, s'.isCurrent t = s.isCurrent t
  waits : ∀ t, s'.requests.token = some t → s'.isCurrent t = true
  thread : ∀ ch, s'.worker.worker = some ch → ∃ ch', s.worker.worker = some ch' ∧ ch'.thread = ch.thread

theorem poll_thread {w w' : HostImageWorker} {c : Option HostImageCompletion} (hp : w.poll = (c, w'))
    (ch : HostImageChannels) (hch : w'.worker = some ch) : ∃ ch', w.worker = some ch' ∧ ch'.thread = ch.thread := by
  unfold HostImageWorker.poll at hp
  split at hp
  · next hw =>
    split at hp
    · cases hp
      obtain rfl := Option.some.inj hch
      exact ⟨_, hw, rfl⟩
    · split at hp
      · cases hp
        cases hch
      · cases hp
        exact ⟨ch, hch, rfl⟩
  · cases hp
    exact ⟨ch, hch, rfl⟩

theorem Received.sound {s s' : State} (hr : Received s s') (h : Sound s) : Sound s' := by
  cases hr with
  | nothing hp => exact h
  | result hp => exact h.settle hp

theorem polled (h : Sound s) : Polled s s.expire.receiveResult := by
  have hr := receiveResult_received s.expire
  have hw := expire_worker s
  have hcur : ∀ t, s.expire.isCurrent t = s.isCurrent t := by
    rcases expire_cases s with ⟨he, -⟩ | ⟨he, -⟩
    · rw [he]
      exact fun _ => rfl
    · rw [he]
      exact fun _ => rfl
  have hstarted : s.expire.started = s.started := by
    rcases expire_cases s with ⟨he, -⟩ | ⟨he, -⟩
    · rw [he]
    · rw [he]
      rfl
  have hsound := hr.sound h.expire
  generalize s.expire.receiveResult = s' at hr hsound
  cases hr with
  | nothing hp =>
    refine ⟨hsound, by rw [hw], hstarted, hcur, fun t ht => (hcur t).trans (expire_current s t ht), fun ch hch => ?_⟩
    exact ⟨ch, hw ▸ hch, rfl⟩
  | @result c w hp =>
    have hpending := (h.expire.flight.poll hp).2.2.1
    refine ⟨hsound, hpending.trans (by rw [hw]), hstarted, hcur, fun t ht => ?_, fun ch hch => ?_⟩
    · rw [settle_requests] at ht
      rcases take_cases s.expire.requests c.token with ⟨-, htake⟩ | ⟨-, htake⟩
      · change (s.expire.requests.take c.token).2.token = some t at ht
        rw [htake] at ht
        cases ht
      · change (s.expire.requests.take c.token).2.token = some t at ht
        rw [htake] at ht
        exact (hcur t).trans (expire_current s t ht)
    · rw [hw] at hp
      exact poll_thread hp ch hch

/-! ## The next job -/

/-- What the last part of a poll does with the pending job. -/
inductive Next (s : State) (spawnOk : Bool) : State → Prop
  | idle : s.worker.pending = none → Next s spawnOk s
  | superseded {job : HostImageJob} : s.worker.pending = some job → s.isCurrent job.token = false →
      Next s spawnOk { s with worker := s.worker.replacePending none }
  | busy {job : HostImageJob} {t : HostImageToken} : s.worker.pending = some job → s.isCurrent job.token = true →
      s.worker.inFlight = some t → Next s spawnOk s
  | started {job : HostImageJob} {w : HostImageWorker} : s.worker.pending = some job →
      s.isCurrent job.token = true → s.worker.inFlight = none → s.worker.startPending spawnOk = (w, .ok ()) →
      Next s spawnOk { s with worker := w, started := job :: s.started }
  | failed {job : HostImageJob} {w : HostImageWorker} {error : String} : s.worker.pending = some job →
      s.isCurrent job.token = true → s.worker.inFlight = none → s.worker.startPending spawnOk = (w, .error error) →
      Next s spawnOk (State.closeAll { s with worker := w, requests := (s.requests.take job.token).2 }
        (s.requests.take job.token).1)

theorem startNext_next (s : State) (spawnOk : Bool) : Next s spawnOk (s.startNext spawnOk) := by
  unfold State.startNext
  cases hp : s.worker.pending with
  | none => exact .idle hp
  | some job =>
    dsimp only
    cases hc : s.isCurrent job.token with
    | false => exact .superseded hp hc
    | true =>
      cases hf : s.worker.inFlight with
      | some t =>
        have hs : s.worker.startPending spawnOk = (s.worker, .ok ()) := by
          unfold HostImageWorker.startPending
          rw [hf]
          rfl
        rw [hs]
        exact .busy hp hc hf
      | none =>
        cases hs : s.worker.startPending spawnOk with
        | mk w result =>
          cases result with
          | ok _ => exact .started hp hc hf hs
          | error error => exact .failed hp hc hf hs

theorem Next.sound {spawnOk : Bool} (hn : Next s spawnOk s') (h : Sound s)
    (hcur : ∀ t, s.requests.token = some t → s.isCurrent t = true) : Sound s' := by
  cases hn with
  | idle hp => exact h
  | busy hp hc hf => exact h
  | @superseded job hp hc =>
    refine ⟨h.flight.replacePending none, h.books, fun t ht => ?_, nofun, h.converted⟩
    rcases h.served t ht with hs | hs
    · have he : t = job.token := by
        unfold HostImageWorker.pendingToken at hs
        rw [hp] at hs
        exact (Option.some.inj hs).symm
      rw [he] at ht
      rw [hcur _ ht] at hc
      cases hc
    · exact Or.inr hs
  | @started job w hp hc hf hs =>
    obtain ⟨hpending, hok, -⟩ := h.flight.start hf hp hs
    obtain ⟨hflight, hw⟩ := hok rfl
    refine ⟨hw, h.books, fun t ht => ?_, fun j hj => ?_, fun c hm => ?_⟩
    · rcases h.served t ht with hs | hs
      · right
        unfold HostImageWorker.pendingToken at hs
        rw [hp] at hs
        exact hflight.trans hs
      · rw [hf] at hs
        cases hs
    · rw [hpending] at hj
      cases hj
    · obtain ⟨j, hj, he⟩ := h.converted c hm
      exact ⟨j, List.mem_cons_of_mem _ hj, he⟩
  | @failed job w error hp hc hf hs =>
    obtain ⟨hpending, -, herr⟩ := h.flight.start hf hp hs
    obtain ⟨hflight, hw⟩ := herr nofun
    have hnewest : ∀ j, w.pending = some j → s.offered.head? = some j := by
      intro j hj
      rw [hpending] at hj
      cases hj
    rcases take_cases s.requests job.token with ⟨htoken, htake⟩ | ⟨htoken, htake⟩
    · rw [htake]
      exact ⟨hw, h.books.reset none, nofun, hnewest, h.converted⟩
    · rw [htake]
      refine ⟨hw, h.books, fun t ht => ?_, hnewest, h.converted⟩
      -- nothing is in flight, so what is waited for is the pending job
      rcases h.served t ht with hs | hs
      · unfold HostImageWorker.pendingToken at hs
        rw [hp] at hs
        exact absurd (ht.trans hs.symm) htoken
      · rw [hf] at hs
        cases hs

theorem Sound.pollResults (h : Sound s) (spawnOk : Bool) : Sound (s.pollResults spawnOk) := by
  unfold State.pollResults
  split
  · have hp := polled h
    exact (startNext_next _ spawnOk).sound hp.sound hp.waits
  · exact h

end CocoaWay.HostImage
