import CocoaWay.CommandCache.Basic
import CocoaWay.CommandCache.Guards

/-!
# No request and no guard decides on a listing older than the last recorded change

* `FreshResult` : a result of a command started after the last invalidation, as a request returns it;
* `confirmVolumeRemoval_ok`, `mem_imageReferencesForId` : what a guard that goes through has read;
* `commandCache_guarantees` : one command for each key, and no answer older than the last invalidation, for requests and
  for the guards;
* `commandCache_outdated` : a command that runs across an invalidation leaves its result behind it.
-/

namespace CocoaWay.CommandCache
open Lib

variable {κ ω : Type} [DecidableEq κ] {s : State κ ω}

/-! ## Answers -/

/-- The result is that of a command for the key started after the last invalidation. -/
def FreshResult (s : State κ ω) (key : κ) (result : Except (List Char) ω) : Prop :=
  ∃ entry, s.cache.get key = some entry ∧ entry.result = result ∧ entry.startedIn = s.invalidations

/-- A request returns a fresh result or the loading error. -/
theorem Fresh.runUiCommand (h : Fresh s) (key : κ) :
    FreshResult s key (s.runUiCommand key) ∨ s.runUiCommand key = .error uiCommandLoading := by
  unfold State.runUiCommand
  split
  next entry hget => exact Or.inl ⟨entry, hget, rfl, h.cached key entry hget⟩
  next => exact Or.inr rfl

theorem Fresh.of_ok (h : Fresh s) {key : κ} {output : ω} (hr : s.runUiCommand key = .ok output) :
    FreshResult s key (.ok output) := by
  rcases h.runUiCommand key with hf | he
  · rwa [hr] at hf
  · rw [hr] at he
    cases he

/-! ## Guards -/

variable {host : Host} {t : State Text Output} {runtime name : Text}

theorem sortDedup_eq_nil {l : List Text} : sortDedup l = [] ↔ l = [] := by
  unfold sortDedup
  rw [List.destutter_eq_nil, ← List.length_eq_zero_iff, List.length_mergeSort, List.length_eq_zero_iff]

theorem mem_of_mem_sortDedup {l : List Text} {a : Text} (h : a ∈ sortDedup l) : a ∈ l :=
  (List.mergeSort_perm l _).mem_iff.1 ((List.destutter_sublist _ _).subset h)

/-- A volume usage without an error and not loading was made of a listing. -/
theorem volumeUsageOf_read {referenced : List Text} {answer : Except Text Output} {usage : VolumeUsage}
    (hu : volumeUsageOf host runtime name referenced answer = usage) (hl : usage.loading = false)
    (he : usage.error = none) :
    ∃ output mounted, answer = .ok output ∧ output.success = true ∧
      parsedMounts host runtime name output = .ok mounted ∧
      usage.mountedContainers = sortDedup mounted := by
  unfold volumeUsageOf at hu
  dsimp only at hu
  split at hu
  next output =>
    split at hu
    next hs =>
      split at hu
      next mounted hp =>
        subst hu
        exact ⟨output, mounted, rfl, hs, hp, rfl⟩
      next =>
        subst hu
        cases he
    next =>
      subst hu
      cases he
  next error =>
    split at hu
    next =>
      subst hu
      cases hl
    next =>
      subst hu
      cases he

/-- A volume guard that goes through has read a listing without a container that mounts the volume. -/
theorem confirmVolumeRemoval_ok {referenced : List Text} {usage : VolumeUsage}
    (h : confirmVolumeRemoval host t runtime name referenced = .ok usage) :
    ∃ key output, t.runUiCommand key = .ok output ∧ output.success = true ∧
      parsedMounts host runtime name output = .ok [] := by
  unfold confirmVolumeRemoval at h
  split at h
  · cases h
  · dsimp only at h
    split at h
    · cases h
    next hl =>
      split at h
      · cases h
      next he =>
        split at h
        · cases h
        next hm =>
          unfold volumeUsage at hl he hm
          cases hpath : host.findCommandPath (volumeUsageCommand runtime name).1 with
          | none =>
            rw [hpath] at he
            cases he
          | some path =>
            rw [hpath] at hl he hm
            obtain ⟨output, mounted, hrun, hs, hp, hmount⟩ := volumeUsageOf_read rfl (by simpa using hl) he
            have hnil : mounted = [] := by
              rw [← sortDedup_eq_nil, ← hmount]
              simpa using hm
            subst hnil
            exact ⟨_, output, hrun, hs, hp⟩

/-- A row with a reference comes from a listing. -/
theorem mem_imageInventories {key : Text} {rows : List ImageRow} {row : ImageRow} {reference : Text}
    (hi : (key, rows) ∈ imageInventories host t) (hr : row ∈ rows) (href : row.reference = some reference) :
    ∃ command answer, t.runUiCommand command = .ok answer ∧
      (row ∈ host.appleImageRowsFromOutput answer ∨
        answer.success = true ∧ row ∈ (lines answer.stdout).filterMap parseDockerImageLine) := by
  have hmessage : ∀ {m : Text}, row ≠ ImageRow.message m := by
    rintro m rfl
    cases href
  unfold imageInventories at hi
  split at hi
  next task detail _ =>
    obtain ⟨rfl, rfl⟩ := Prod.ext_iff.1 (List.mem_singleton.1 hi)
    rcases List.mem_cons.1 hr with hr | hr
    · exact absurd hr hmessage
    · obtain ⟨m, -, rfl⟩ := List.mem_map.1 hr
      cases href
  next =>
    rcases List.mem_cons.1 hi with hi | hi
    · obtain ⟨rfl, rfl⟩ := Prod.ext_iff.1 hi
      unfold appleContainerImageRows at hr
      split at hr
      · exact absurd (List.mem_singleton.1 hr) hmessage
      next path _ =>
        dsimp only at hr
        unfold appleContainerImageRowsOf at hr
        split at hr
        next output hrun => exact ⟨_, output, hrun, Or.inl hr⟩
        next => exact absurd (List.mem_singleton.1 hr) hmessage
    · obtain ⟨rfl, rfl⟩ := Prod.ext_iff.1 (List.mem_singleton.1 hi)
      unfold dockerImageRows at hr
      split at hr
      · exact absurd (List.mem_singleton.1 hr) hmessage
      next path _ =>
        unfold dockerImageRowsOf at hr
        split at hr
        next output hrun =>
          split at hr
          next hs =>
            dsimp only at hr
            split at hr
            · exact absurd (List.mem_singleton.1 hr) hmessage
            · exact ⟨_, output, hrun, Or.inr ⟨hs, hr⟩⟩
          next => exact absurd (List.mem_singleton.1 hr) hmessage
        next => exact absurd (List.mem_singleton.1 hr) hmessage

/-- A reference found for an image identifier comes from a listing. -/
theorem mem_imageReferencesForId {imageId reference : Text}
    (h : reference ∈ imageReferencesForId host t runtime imageId) :
    ∃ command answer row, t.runUiCommand command = .ok answer ∧ row.reference = some reference ∧
      (row ∈ host.appleImageRowsFromOutput answer ∨
        answer.success = true ∧ row ∈ (lines answer.stdout).filterMap parseDockerImageLine) := by
  obtain ⟨row, hrow, href⟩ := List.mem_filterMap.1 (mem_of_mem_sortDedup h)
  obtain ⟨⟨key, rows⟩, hinv, hr⟩ := List.mem_flatMap.1 hrow
  have href : row.reference = some reference := by
    obtain ⟨hsome, -⟩ := Option.filter_eq_some_iff.1 href
    exact hsome
  obtain ⟨command, answer, hrun, hsource⟩ := mem_imageInventories (List.mem_of_mem_filter hinv) hr href
  exact ⟨command, answer, row, hrun, href, hsource⟩

/-! ## Main results -/

structure Guarantees (s : State Text Output) : Prop where
  /-- At most one command for a key is in flight. -/
  exclusive : ∀ key, total (Task.inFlight key) s.tasks ≤ 1
  /-- A request returns a result of a command started after the last invalidation, or is still loading. -/
  answers : ∀ key, FreshResult s key (s.runUiCommand key) ∨ s.runUiCommand key = .error uiCommandLoading
  /-- So does what the volume guard reads, once its command is installed. -/
  volumes : ∀ host runtime name referenced path,
    host.findCommandPath (volumeUsageCommand runtime name).1 = some path →
      ∃ key answer, (FreshResult s key answer ∨ answer = .error uiCommandLoading) ∧
        volumeUsage host s runtime name referenced = volumeUsageOf host runtime name referenced answer
  /-- A deletion is offered only on such a listing, which shows no container with the volume. -/
  offered : ∀ host runtime name referenced usage, confirmVolumeRemoval host s runtime name referenced = .ok usage →
    ∃ key output, FreshResult s key (.ok output) ∧ output.success = true ∧
      parsedMounts host runtime name output = .ok []
  /-- The references the image guard knows are on such a listing. -/
  images : ∀ host runtime imageId, ∀ reference ∈ imageReferencesForId host s runtime imageId,
    ∃ key output row, FreshResult s key (.ok output) ∧ row.reference = some reference ∧
      (row ∈ host.appleImageRowsFromOutput output ∨
        output.success = true ∧ row ∈ (lines output.stdout).filterMap parseDockerImageLine)

theorem commandCache_guarantees {s : State Text Output}
    (h : (system Text Output).ReachableWhere (fun s e => s.quiet e = true) s) : Guarantees s := by
  have hfresh := fresh_reachable h
  refine ⟨fun key => ?_, hfresh.runUiCommand, ?_, ?_, ?_⟩
  · obtain ⟨heq, hle⟩ := exclusive_reachable h.reachable key
    omega
  · intro host runtime name referenced path hpath
    refine ⟨_, _, hfresh.runUiCommand (uiCommandCacheKey path host.childPath (volumeUsageCommand runtime name).2), ?_⟩
    unfold volumeUsage
    rw [hpath]
  · intro host runtime name referenced usage hok
    obtain ⟨key, output, hrun, hs, hp⟩ := confirmVolumeRemoval_ok hok
    exact ⟨key, output, hfresh.of_ok hrun, hs, hp⟩
  · intro host runtime imageId reference hm
    obtain ⟨key, output, row, hrun, href, hsource⟩ := mem_imageReferencesForId hm
    exact ⟨key, output, row, hfresh.of_ok hrun, href, hsource⟩

/-- A host on which every command is found and every listing is empty. -/
def emptyHost : Host where
  childPath := []
  findCommandPath path := some path
  fromStr _ := .ok []
  firstStderrLine _ fallback := fallback
  appleImageRowsFromOutput _ := []
  imageTaskActive := none

/-- The key of the container listing on that host. -/
def listKey : Text := uiCommandCacheKey "container".toList [] (volumeUsageCommand [] []).2

/-- A command runs, its result is cached, an invalidation comes, and a second command fills the cache again. -/
theorem commandCache_guarantees_refreshed :
    ∃ s, Guarantees s ∧ s.invalidations = 1 ∧ ∃ output, s.runUiCommand listKey = .ok output := by
  have hrun : ((system Text Output).runWhere State.quiet (system Text Output).init
      [.request listKey, .refresh listKey, .start listKey, .store listKey 0 (.ok ⟨true, [], []⟩), .finish listKey,
        .invalidate, .request listKey, .refresh listKey, .start listKey,
        .store listKey 1 (.ok ⟨true, [], []⟩)]).any
      (fun s => decide (s.invalidations = 1) && (s.runUiCommand listKey).isOk) = true := by decide
  obtain ⟨s, hs, hp⟩ := System.exists_reachableWhere hrun
  simp only [Bool.and_eq_true, decide_eq_true_eq] at hp
  refine ⟨s, commandCache_guarantees hs, hp.1, ?_⟩
  cases hr : s.runUiCommand listKey with
  | ok output => exact ⟨output, rfl⟩
  | error error =>
    rw [hr] at hp
    cases hp.2

/-- A command runs across an invalidation and stores its result after it: the next request returns it, and the volume
guard offers a deletion on it. -/
theorem commandCache_outdated :
    ∃ s, (system Text Output).Reachable s ∧
      (∃ entry, s.cache.get listKey = some entry ∧ entry.result = s.runUiCommand listKey ∧
        entry.startedIn < s.invalidations) ∧
      ∃ usage, confirmVolumeRemoval emptyHost s "container".toList "data".toList [] = .ok usage := by
  have hrun : ((system Text Output).run (system Text Output).init
      [.request listKey, .refresh listKey, .start listKey, .invalidate,
        .store listKey 0 (.ok ⟨true, [], []⟩), .finish listKey]).any
      (fun s => (s.cache.get listKey).any (fun entry => decide (entry.startedIn < s.invalidations)) &&
        (confirmVolumeRemoval emptyHost s "container".toList "data".toList []).isOk) = true := by decide +kernel
  obtain ⟨s, hs, hp⟩ := System.exists_reachable hrun
  simp only [Bool.and_eq_true, Option.any_eq_true, decide_eq_true_eq] at hp
  obtain ⟨⟨entry, hget, hlt⟩, hok⟩ := hp
  refine ⟨s, hs, ⟨entry, hget, by simp [State.runUiCommand, hget], hlt⟩, ?_⟩
  cases hr : confirmVolumeRemoval emptyHost s "container".toList "data".toList [] with
  | ok usage => exact ⟨usage, rfl⟩
  | error error =>
    rw [hr] at hok
    cases hok

end CocoaWay.CommandCache
