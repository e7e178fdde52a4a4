import CocoaWay.Tasks.Basic
import Mathlib.Data.List.Induction
import Mathlib.Data.List.Nodup

/-!
# Every order of calls on the operation tasks

* `Sound` : what every call keeps; `Edit` : a change of one task, of which `update`, `finish` and `cancelling` are
  cases;
* `Keeps` : a task that has ended stays so;
* `harmless` : what a call must find; `operation_tasks_iff` : a run keeps its promises exactly when its calls find it.
-/

namespace CocoaWay.Tasks
open Lib Control

variable {s s' : State} {key : String} {f : OperationTask → OperationTask} {t : OperationTask}

/-! ## What every call keeps -/

/-- The task has no step left to do, if it is completed. -/
def OperationTask.Done (t : OperationTask) : Prop :=
  t.status = .completed → ∀ step ∈ t.steps, step.status ≠ .pending ∧ step.status ≠ .running

structure Sound (s : State) : Prop where
  fresh : ∀ t ∈ s.tasks, t.id < s.sequence
  ordered : s.tasks.Pairwise fun a b => a.id < b.id
  bounded : s.tasks.length ≤ 100
  /-- Only the last task of a key is active. -/
  single : s.tasks.Pairwise fun a b => a.key = b.key → a.status.isActive = false
  done : ∀ t ∈ s.tasks, t.Done

/-- A change of one task. -/
structure Edit (f : OperationTask → OperationTask) : Prop where
  id : ∀ t, (f t).id = t.id
  key : ∀ t, (f t).key = t.key
  done : ∀ t, t.Done → (f t).Done

/-- The state with the last task of a key changed. -/
def State.edit (s : State) (key : String) (f : OperationTask → OperationTask) : State :=
  { s with tasks := modifyLatest (·.key == key) f s.tasks }

theorem Sound.edit (h : Sound s) (hf : Edit f) (key : String) : Sound (s.edit key f) where
  fresh := forall_modifyLatest h.fresh fun t _ ht => by rwa [hf.id]
  ordered := pairwise_modifyLatest h.ordered (fun a t _ ha => by rwa [hf.id]) fun t b _ _ hb => by rwa [hf.id]
  bounded := by
    unfold State.edit
    rw [length_modifyLatest]
    exact h.bounded
  single := by
    refine pairwise_modifyLatest h.single (fun a t _ ha => by rwa [hf.key]) fun t b ht hb _ heq => ?_
    -- no task of the key is behind the one that changes
    rw [hf.key] at heq
    rw [beq_iff_eq] at ht
    rw [← heq, ht, beq_self_eq_true] at hb
    cases hb
  done := forall_modifyLatest h.done fun t _ => hf.done t

theorem mem_retained : t ∈ retained key s.tasks ↔ t ∈ s.tasks ∧ (t.key = key → t.status.isActive = false) := by
  unfold retained
  rw [List.mem_filter, Bool.or_eq_true, bne_iff_ne, Bool.not_eq_true']
  exact and_congr_right fun _ => by rw [Decidable.imp_iff_not_or]

theorem trim_sublist (tasks : List OperationTask) : (trim tasks).Sublist tasks := List.drop_sublist _ _

theorem retained_sublist (key : String) (tasks : List OperationTask) : (retained key tasks).Sublist tasks :=
  List.filter_sublist

theorem Sound.start (h : Sound s) (now : Nat) (key operation subject : String) (steps : List String) :
    Sound (startOperationTask now s key operation subject steps) := by
  unfold startOperationTask
  dsimp only
  generalize htask : OperationTask.mk s.sequence key operation subject _ _ _ _ _ = task
  have hid : task.id = s.sequence := by rw [← htask]
  have hkey : task.key = key := by rw [← htask]
  have hqueued : task.status = .queued := by rw [← htask]
  have hold : ∀ t ∈ retained key s.tasks, t ∈ s.tasks := fun t ht => (mem_retained.1 ht).1
  have hpairs {R : OperationTask → OperationTask → Prop} (hR : s.tasks.Pairwise R)
      (hnew : ∀ t ∈ retained key s.tasks, R t task) : (trim (retained key s.tasks ++ [task])).Pairwise R := by
    refine List.Pairwise.sublist (trim_sublist _) (List.pairwise_append.2
      ⟨hR.sublist (retained_sublist key s.tasks), List.pairwise_singleton R task, fun t ht u hu => ?_⟩)
    obtain rfl := List.mem_singleton.1 hu
    exact hnew t ht
  have hall {P : OperationTask → Prop} (hP : ∀ t ∈ s.tasks, P t) (hnew : P task) :
      ∀ t ∈ trim (retained key s.tasks ++ [task]), P t := by
    intro t ht
    rcases List.mem_append.1 ((trim_sublist _).mem ht) with ht | ht
    · exact hP t (hold t ht)
    · exact List.mem_singleton.1 ht ▸ hnew
  refine ⟨hall (fun t ht => Nat.lt_succ_of_lt (h.fresh t ht)) (hid ▸ Nat.lt_succ_self _),
    hpairs h.ordered fun t ht => hid ▸ h.fresh t (hold t ht), ?_, hpairs h.single fun t ht heq => ?_,
    hall h.done fun hcompleted => ?_⟩
  · unfold trim
    rw [List.length_drop]
    omega
  · exact (mem_retained.1 ht).2 (heq.trans hkey)
  · rw [hqueued] at hcompleted
    cases hcompleted

/-! ## The changes -/

def updateTask (now : Nat) (step : String) (status : TaskStepStatus) (detail : Option String) (task : OperationTask) :
    OperationTask :=
  { task with
    status := if status = .failed then .failed else .running
    steps := markStep step status detail task.steps
    detail, updatedAtUnixMs := now }

def finishTask (now : Nat) (status : TaskStatus) (detail : String) (task : OperationTask) : OperationTask :=
  { task with status, detail := some detail, updatedAtUnixMs := now, steps := finishSteps status task.steps }

def cancellingTask (now : Nat) (detail : String) (task : OperationTask) : OperationTask :=
  { task with status := .running, detail := some detail, updatedAtUnixMs := now }

theorem edit_update (now : Nat) (step : String) (status : TaskStepStatus) (detail : Option String) :
    Edit (updateTask now step status detail) where
  id _ := rfl
  key _ := rfl
  done t _ hcompleted := by
    unfold updateTask at hcompleted
    dsimp only at hcompleted
    split at hcompleted <;> cases hcompleted

theorem finishSteps_completed (steps : List TaskStep) :
    ∀ step ∈ finishSteps .completed steps, step.status ≠ .pending ∧ step.status ≠ .running := by
  intro step hstep
  obtain ⟨old, -, rfl⟩ := List.mem_map.1 hstep
  split
  · next hfailed =>
    rw [hfailed]
    exact ⟨nofun, nofun⟩
  · exact ⟨nofun, nofun⟩

theorem edit_finish (now : Nat) (status : TaskStatus) (detail : String) : Edit (finishTask now status detail) where
  id _ := rfl
  key _ := rfl
  done t _ hcompleted := by
    obtain rfl : status = .completed := hcompleted
    exact finishSteps_completed t.steps

theorem edit_cancelling (now : Nat) (detail : String) : Edit (cancellingTask now detail) where
  id _ := rfl
  key _ := rfl
  done _ _ := nofun

/-! ## What a call must find -/

/-- A start finds room, or what it drops has ended. -/
def roomFor (s : State) (key : String) : Bool :=
  (retained key s.tasks).length < 100 || (retained key s.tasks).head?.all (!·.status.isActive)

/-- An active status finds an active task, or none. -/
def mayBecome (s : State) (key : String) (status : TaskStatus) : Bool :=
  !status.isActive || (latestOperationTask s key).all (·.status.isActive)

/-- The key of the task that a call starts. -/
def startedKey (s : State) : Call → Option String
  | .start key .. => some key
  | .ensureLaunch id _ => if latestActive s (launchTaskKey id) then none else some (launchTaskKey id)
  | .ensureStop id _ => if latestActive s (stopTaskKey id) then none else some (stopTaskKey id)
  | _ => none

def harmless (s : State) (e : Event) : Bool :=
  match e.call with
  | .update key _ status _ => mayBecome s key (if status = .failed then .failed else .running)
  | .launchProgress id .. | .launchCancelling id _ => mayBecome s (launchTaskKey id) .running
  | .stopProgress id .. => mayBecome s (stopTaskKey id) .running
  | .finish key status _ => mayBecome s key status
  | call => (startedKey s call).all (roomFor s)

/-- What a call does to the history. -/
inductive Writes (s : State) (e : Event) : State → Prop
  | nothing : startedKey s e.call = none → harmless s e = true → Writes s e s
  | start (key operation subject : String) (steps : List String) : startedKey s e.call = some key →
    harmless s e = roomFor s key → Writes s e (startOperationTask e.now s key operation subject steps)
  | edit (key : String) (f : OperationTask → OperationTask) (status : TaskStatus) : Edit f →
    (∀ t, (f t).status = status) → startedKey s e.call = none → harmless s e = mayBecome s key status →
    Writes s e (s.edit key f)
  | edits (key key' : String) (f f' : OperationTask → OperationTask) : Edit f → Edit f' →
    (∀ t, (f t).status.isActive = false) → (∀ t, (f' t).status.isActive = false) →
    startedKey s e.call = none → harmless s e = true → Writes s e ((s.edit key f).edit key' f')

theorem apply_writes (s : State) (e : Event) : Writes s e (apply s e) := by
  obtain ⟨now, call⟩ := e
  cases call with
  | start key operation subject steps => exact .start key operation subject steps rfl rfl
  | ensureLaunch id name =>
    by_cases hactive : latestActive s (launchTaskKey id)
    · have hkey : startedKey s (.ensureLaunch id name) = none := if_pos hactive
      simp only [apply, ensureLaunchTask, if_pos hactive]
      exact .nothing hkey (by simp only [harmless, hkey, Option.all_none])
    · have hkey : startedKey s (.ensureLaunch id name) = some (launchTaskKey id) := if_neg hactive
      simp only [apply, ensureLaunchTask, if_neg hactive]
      exact .start _ _ _ _ hkey (by simp only [harmless, hkey, Option.all_some])
  | ensureStop id name =>
    by_cases hactive : latestActive s (stopTaskKey id)
    · have hkey : startedKey s (.ensureStop id name) = none := if_pos hactive
      simp only [apply, ensureStopTask, if_pos hactive]
      exact .nothing hkey (by simp only [harmless, hkey, Option.all_none])
    · have hkey : startedKey s (.ensureStop id name) = some (stopTaskKey id) := if_neg hactive
      simp only [apply, ensureStopTask, if_neg hactive]
      exact .start _ _ _ _ hkey (by simp only [harmless, hkey, Option.all_some])
  | update key step status detail =>
    exact .edit key (updateTask now step status detail) _ (edit_update now step status detail) (fun _ => rfl) rfl rfl
  | launchProgress id step detail =>
    exact .edit _ (updateTask now step.label .running (some detail)) _ (edit_update now _ _ _) (fun _ => rfl) rfl rfl
  | stopProgress id step detail =>
    exact .edit _ (updateTask now step .running (some detail)) _ (edit_update now _ _ _) (fun _ => rfl) rfl rfl
  | launchCancelling id detail =>
    exact .edit _ (cancellingTask now detail) _ (edit_cancelling now detail) (fun _ => rfl) rfl rfl
  | launchCancelled id detail =>
    have hcancelled := edit_finish now .cancelled detail
    simp only [apply, recordLaunchCancelled]
    split
    · exact .edits _ _ (finishTask now .cancelled detail) (finishTask now .completed detail) hcancelled
        (edit_finish now .completed detail) (fun _ => rfl) (fun _ => rfl) rfl rfl
    · exact .edit _ (finishTask now .cancelled detail) .cancelled hcancelled (fun _ => rfl) rfl rfl
  | finish key status detail =>
    exact .edit key (finishTask now status detail) status (edit_finish now status detail) (fun _ => rfl) rfl rfl

theorem Sound.writes {e : Event} (h : Sound s) (hw : Writes s e s') : Sound s' := by
  cases hw with
  | nothing => exact h
  | start key operation subject steps => exact h.start e.now key operation subject steps
  | edit key f status hf => exact h.edit hf key
  | edits key key' f f' hf hf' => exact (h.edit hf key).edit hf' key'

theorem run_append (before after : List Event) :
    run (before ++ after) = after.foldl apply (run before) := List.foldl_append

theorem run_snoc (before : List Event) (e : Event) : run (before ++ [e]) = apply (run before) e := run_append before [e]

theorem sound_run (events : List Event) : Sound (run events) := by
  induction events using List.reverseRecOn with
  | nil => exact ⟨nofun, .nil, Nat.zero_le 100, .nil, nofun⟩
  | append_singleton events e ih =>
    rw [run_snoc]
    exact ih.writes (apply_writes _ e)

/-! ## What has ended -/

/-- No old task is active that had ended. -/
structure Keeps (s s' : State) : Prop where
  sequence : s.sequence ≤ s'.sequence
  ended : ∀ t' ∈ s'.tasks, t'.id < s.sequence →
    ∃ t ∈ s.tasks, t.id = t'.id ∧ (t.status.isActive = false → t'.status.isActive = false)

theorem Keeps.refl (s : State) : Keeps s s := ⟨Nat.le_refl _, fun t ht _ => ⟨t, ht, rfl, id⟩⟩

theorem Keeps.trans {s'' : State} (h : Keeps s s') (h' : Keeps s' s'') : Keeps s s'' := by
  refine ⟨Nat.le_trans h.sequence h'.sequence, fun u hu hlt => ?_⟩
  obtain ⟨t', ht', hid', hstays'⟩ := h'.ended u hu (Nat.lt_of_lt_of_le hlt h.sequence)
  obtain ⟨t, ht, hid, hstays⟩ := h.ended t' ht' (hid' ▸ hlt)
  exact ⟨t, ht, hid.trans hid', hstays' ∘ hstays⟩

theorem keeps_edit (hf : Edit f) (h : ∀ t, latestOperationTask s key = some t → t.status.isActive = false →
    (f t).status.isActive = false) : Keeps s (s.edit key f) := by
  refine ⟨Nat.le_refl _, fun t' ht' _ => ?_⟩
  rcases mem_modifyLatest ht' with hmem | ⟨t, hlatest, rfl⟩
  · exact ⟨t', hmem, rfl, id⟩
  · exact ⟨t, latest_mem hlatest, (hf.id t).symm, h t hlatest⟩

theorem keeps_start (now : Nat) (s : State) (key operation subject : String) (steps : List String) :
    Keeps s (startOperationTask now s key operation subject steps) := by
  refine ⟨Nat.le_succ _, fun t' ht' hlt => ?_⟩
  rcases List.mem_append.1 ((trim_sublist _).mem ht') with ht' | ht'
  · exact ⟨t', (mem_retained.1 ht').1, rfl, id⟩
  · rw [List.mem_singleton.1 ht'] at hlt
    exact absurd hlt (Nat.lt_irrefl _)

theorem mayBecome_iff {status : TaskStatus} : mayBecome s key status = true ↔
    ∀ t, latestOperationTask s key = some t → t.status.isActive = false → status.isActive = false := by
  unfold mayBecome
  cases hlatest : latestOperationTask s key with
  | none => simp
  | some t => cases ht : t.status.isActive <;> simp [ht]

theorem keeps_writes {e : Event} (hw : Writes s e s') (h : harmless s e = true) : Keeps s s' := by
  cases hw with
  | nothing => exact .refl s
  | start key operation subject steps => exact keeps_start e.now s key operation subject steps
  | edit key f status hf hstatus _ hharmless =>
    refine keeps_edit hf fun t ht hended => ?_
    rw [hstatus]
    exact mayBecome_iff.1 (hharmless.symm.trans h) t ht hended
  | edits key key' f f' hf hf' hended hended' =>
    exact (keeps_edit hf fun t _ _ => hended t).trans (keeps_edit hf' fun t _ _ => hended' t)

theorem Sound.eq_of_id (h : Sound s) {t' : OperationTask} (ht : t ∈ s.tasks) (ht' : t' ∈ s.tasks) (hid : t.id = t'.id) :
    t = t' := by
  have hnodup : (s.tasks.map (·.id)).Nodup := List.pairwise_map.2 (h.ordered.imp fun hlt => Nat.ne_of_lt hlt)
  exact List.inj_on_of_nodup_map hnodup ht ht' hid

/-! ## What is dropped -/

theorem mem_trim_push {tasks : List OperationTask} {task : OperationTask} (hlength : tasks.length ≤ 100)
    (ht : t ∈ tasks)
    (hfirst : tasks.length < 100 ∨ tasks.head? ≠ some t) : t ∈ trim (tasks ++ [task]) := by
  unfold trim
  rw [List.length_append, List.length_singleton]
  by_cases hroom : tasks.length < 100
  · rw [show tasks.length + 1 - 100 = 0 by omega]
    exact List.mem_append_left _ ht
  · rw [show tasks.length + 1 - 100 = 1 by omega]
    cases tasks with
    | nil => cases ht
    | cons first tasks =>
      have hne : t ≠ first := fun heq => (hfirst.resolve_left hroom) (by rw [heq]; rfl)
      exact List.mem_append_left _ ((List.mem_cons.1 ht).resolve_left hne)

/-- With a full history the oldest task is dropped. -/
theorem trim_push_full {first task : OperationTask} {tasks : List OperationTask}
    (hlength : (first :: tasks).length = 100) :
    trim (first :: tasks ++ [task]) = tasks ++ [task] := by
  unfold trim
  rw [List.length_append, hlength]
  rfl

/-! ## Promises -/

def OneActive (s : State) : Prop := ∀ key, (s.tasks.filter fun t => t.key == key && t.status.isActive).length ≤ 1

def CompletedDone (s : State) : Prop := ∀ t ∈ s.tasks, t.Done

/-- What had ended in one state has not become active in another. -/
def StaysEnded (s s' : State) : Prop :=
  ∀ t ∈ s.tasks, t.status.isActive = false → ∀ t' ∈ s'.tasks, t'.id = t.id → t'.status.isActive = false

/-- An active task is still there after a call, unless one is started in its place; and so is the one started. -/
def DropsNoActive (s : State) (e : Event) : Prop :=
  (∀ t ∈ s.tasks, t.status.isActive = true → startedKey s e.call ≠ some t.key → ∃ t' ∈ (apply s e).tasks,
    t'.id = t.id) ∧
  ∀ key, startedKey s e.call = some key → ∃ t' ∈ (apply s e).tasks, t'.id = s.sequence ∧ t'.key = key

theorem Sound.oneActive (h : Sound s) : OneActive s := by
  intro key
  match hactive : s.tasks.filter fun t => t.key == key && t.status.isActive with
  | [] =>
    rw [hactive]
    exact Nat.zero_le 1
  | [_] =>
    rw [hactive]
    exact Nat.le_refl 1
  | a :: b :: rest =>
    exfalso
    have hmem : ∀ t ∈ a :: b :: rest, t.key = key ∧ t.status.isActive = true := by
      intro t ht
      rw [← hactive] at ht
      simpa using (List.mem_filter.1 ht).2
    have hpair := h.single.filter fun t => t.key == key && t.status.isActive
    rw [hactive] at hpair
    have hkeys : a.key = b.key := (hmem a (by simp)).1.trans (hmem b (by simp)).1.symm
    have hended := (List.pairwise_cons.1 hpair).1 b List.mem_cons_self hkeys
    rw [(hmem a (by simp)).2] at hended
    cases hended

theorem Keeps.staysEnded (h : Keeps s s') (hs : Sound s) : StaysEnded s s' := by
  intro t ht hended t' ht' hid
  obtain ⟨u, hu, hidu, hstays⟩ := h.ended t' ht' (hid ▸ hs.fresh t ht)
  obtain rfl := hs.eq_of_id hu ht (hidu.trans hid)
  exact hstays hended

theorem dropsNoActive_iff_start {now : Nat} {operation subject : String} {steps : List String} (hs : Sound s) :
    (∀ t ∈ s.tasks, t.status.isActive = true → t.key ≠ key →
      ∃ t' ∈ (startOperationTask now s key operation subject steps).tasks, t'.id = t.id) ↔ roomFor s key = true := by
  have hlength : (retained key s.tasks).length ≤ 100 := Nat.le_trans (retained_sublist key s.tasks).length_le hs.bounded
  unfold roomFor startOperationTask
  dsimp only
  rw [Bool.or_eq_true, decide_eq_true_eq]
  constructor
  · intro hdrops
    by_contra hno
    rw [not_or] at hno
    obtain ⟨hfull, hactive⟩ := hno
    -- the oldest task is active, and gone
    match hretained : retained key s.tasks with
    | [] => simp [hretained] at hfull
    | first :: rest =>
      rw [hretained] at hfull hactive hlength
      have hfirst : first ∈ retained key s.tasks := hretained ▸ List.mem_cons_self
      have hstatus : first.status.isActive = true := by simpa using hactive
      obtain ⟨hmem, hkey⟩ := mem_retained.1 hfirst
      obtain ⟨t', ht', hid⟩ := hdrops first hmem hstatus fun hkey' => by
        rw [hkey hkey'] at hstatus
        cases hstatus
      rw [hretained, trim_push_full (by omega)] at ht'
      have hordered := hs.ordered.sublist (retained_sublist key s.tasks)
      rw [hretained, List.pairwise_cons] at hordered
      rcases List.mem_append.1 ht' with ht' | ht'
      · exact Nat.ne_of_gt (hordered.1 t' ht') hid
      · rw [List.mem_singleton.1 ht'] at hid
        exact Nat.ne_of_gt (hs.fresh first hmem) hid
  · intro hroom t ht hactive hkey
    refine ⟨t, mem_trim_push hlength (mem_retained.2 ⟨ht, fun h => absurd h hkey⟩)
      (hroom.imp_right fun hhead heq => ?_), rfl⟩
    rw [heq, Option.all_some, hactive] at hhead
    cases hhead

theorem last_mem_trim (tasks : List OperationTask) (task : OperationTask) : task ∈ trim (tasks ++ [task]) := by
  unfold trim
  rw [List.length_append, List.length_singleton, List.drop_append_of_le_length (by omega)]
  exact List.mem_append_right _ List.mem_cons_self

theorem mem_start (now : Nat) (s : State) (key operation subject : String) (steps : List String) :
    ∃ t' ∈ (startOperationTask now s key operation subject steps).tasks, t'.id = s.sequence ∧ t'.key = key :=
  ⟨_, last_mem_trim (retained key s.tasks) _, rfl, rfl⟩

theorem mem_edit (hf : Edit f) (key : String) (ht : t ∈ s.tasks) : ∃ t' ∈ (s.edit key f).tasks, t'.id = t.id := by
  rcases modifyLatest_mem (p := (·.key == key)) (f := f) ht with hmem | ⟨-, hmem⟩
  · exact ⟨t, hmem, rfl⟩
  · exact ⟨f t, hmem, hf.id t⟩

/-- Between the two states of a call, what is promised holds exactly when the call finds what it must. -/
theorem writes_promises {e : Event} (hs : Sound s) :
    StaysEnded s (apply s e) ∧ DropsNoActive s e ↔ harmless s e = true := by
  unfold DropsNoActive
  have hwrites := apply_writes s e
  generalize apply s e = s' at hwrites
  cases hwrites with
  | nothing hkey hharmless =>
    refine ⟨fun _ => hharmless, fun _ => ⟨(Keeps.refl s).staysEnded hs, fun t ht _ _ => ⟨t, ht, rfl⟩, fun key h => ?_⟩⟩
    rw [hkey] at h
    cases h
  | start key operation subject steps hkey hharmless =>
    have hkeeps := (keeps_start e.now s key operation subject steps).staysEnded hs
    have hdrops := @dropsNoActive_iff_start s key e.now operation subject steps hs
    rw [hharmless, ← hdrops, hkey]
    constructor
    · rintro ⟨-, h, -⟩ t ht hactive hne
      exact h t ht hactive fun heq => hne (Option.some.inj heq).symm
    · intro h
      refine ⟨hkeeps, fun t ht hactive hne => h t ht hactive fun heq => hne (by rw [heq]), ?_⟩
      rintro key' heq
      obtain rfl := Option.some.inj heq
      exact mem_start e.now s key operation subject steps
  | edit key f status hf hstatus hkey hharmless =>
    rw [hharmless, mayBecome_iff, hkey]
    constructor
    · rintro ⟨hstays, -⟩ t hlatest hended
      have hmem : f t ∈ (s.edit key f).tasks := latest_modifyLatest_mem hlatest
      rw [← hstatus t]
      exact hstays t (latest_mem hlatest) hended (f t) hmem (hf.id t)
    · intro h
      have hkeeps : Keeps s (s.edit key f) := keeps_edit hf fun t ht hended => by
        rw [hstatus]
        exact h t ht hended
      exact ⟨hkeeps.staysEnded hs, fun t ht _ _ => mem_edit hf key ht, nofun⟩
  | edits key key' f f' hf hf' hended hended' hkey hharmless =>
    have hkeeps : Keeps s ((s.edit key f).edit key' f') :=
      (keeps_edit hf fun t _ _ => hended t).trans (keeps_edit hf' fun t _ _ => hended' t)
    rw [hkey]
    refine ⟨fun _ => hharmless, fun _ => ⟨hkeeps.staysEnded hs, fun t ht _ _ => ?_, nofun⟩⟩
    obtain ⟨u, hu, hid⟩ := mem_edit hf key ht
    obtain ⟨v, hv, hid'⟩ := mem_edit hf' key' hu
    exact ⟨v, hv, hid'.trans hid⟩

/-! ## Whole runs -/

theorem keeps_run (before after : List Event)
    (h : ∀ pre e post, after = pre ++ e :: post → harmless (run (before ++ pre)) e = true) :
    Keeps (run before) (run (before ++ after)) := by
  induction after using List.reverseRecOn with
  | nil => rw [List.append_nil]; exact .refl _
  | append_singleton after e ih =>
    have hlast := h after e [] rfl
    rw [← List.append_assoc, run_snoc]
    refine (ih fun pre e' post heq => h pre e' (post ++ [e]) ?_).trans (keeps_writes (apply_writes _ e) hlast)
    rw [heq, List.append_assoc, List.cons_append]

/-- What is promised of a run: in each state one active task a key at most, and no completed task with a step to do;
between any two, no task active that had ended; at each call, no active task dropped. -/
structure Promises (events : List Event) : Prop where
  oneActive : ∀ before after, events = before ++ after → OneActive (run before)
  completedDone : ∀ before after, events = before ++ after → CompletedDone (run before)
  staysEnded : ∀ before between after, events = before ++ between ++ after →
    StaysEnded (run before) (run (before ++ between))
  dropsNoActive : ∀ before e after, events = before ++ e :: after → DropsNoActive (run before) e

/-- A run keeps what is promised exactly when no call sets a task active that has ended, and none starts a task where
the oldest of a full history is active. -/
theorem operation_tasks_iff (events : List Event) :
    Promises events ↔ ∀ before e after, events = before ++ e :: after → harmless (run before) e = true := by
  constructor
  · intro h before e after heq
    refine (writes_promises (sound_run before)).1 ⟨?_, h.dropsNoActive before e after heq⟩
    have hstays := h.staysEnded before [e] after (by rw [heq, List.append_assoc]; rfl)
    rwa [run_snoc] at hstays
  · intro h
    refine ⟨fun before _ _ => (sound_run before).oneActive, fun before _ _ => (sound_run before).done, ?_, ?_⟩
    · intro before between after heq
      refine (keeps_run before between fun pre e post hpre => ?_).staysEnded (sound_run before)
      refine h (before ++ pre) e (post ++ after) ?_
      rw [heq, hpre, List.append_assoc, List.append_assoc, List.append_assoc, List.cons_append]
    · intro before e after heq
      exact ((writes_promises (sound_run before)).2 (h before e after heq)).2

/-! ## Progress behind a cancellation -/

def someProfile : ProfileId := .ofByte 1

/-- A launch is cancelled, and its worker then reports progress. -/
def lateProgress : List Event := [
  ⟨0, .ensureLaunch someProfile "Terminal"⟩,
  ⟨1, .launchCancelled someProfile "rollback finished"⟩,
  ⟨2, .launchProgress someProfile .checkImage "image check running"⟩]

theorem lateProgress_breaks : ¬ ∀ events, Promises events := by
  intro h
  have hstays := (h lateProgress).staysEnded (lateProgress.take 2) (lateProgress.drop 2) [] rfl
  have hbefore : (run (lateProgress.take 2)).tasks.map (fun t => (t.id, t.status)) = [(1, .cancelled)] := by decide
  have hafter : (run lateProgress).tasks.map (fun t => (t.id, t.status)) = [(1, .running)] := by decide
  obtain ⟨t, ht, heq⟩ := List.mem_map.1 (hbefore ▸ List.mem_cons_self)
  obtain ⟨t', ht', heq'⟩ := List.mem_map.1 (hafter ▸ List.mem_cons_self)
  obtain ⟨hid, hstatus⟩ := Prod.mk.inj heq
  obtain ⟨hid', hstatus'⟩ := Prod.mk.inj heq'
  have hended := hstays t ht (by rw [hstatus]; rfl) t' ht' (hid'.trans hid.symm)
  rw [hstatus'] at hended
  cases hended

end CocoaWay.Tasks
