import CocoaWay.Lib.Ledger
import CocoaWay.Lib.System
import CocoaWay.Lib.Table

/-!
# The cache of runtime commands of `container_mode.rs`, and the last invalidation

* `Entry`, `Task`, `State` : the cached results, the calls and background threads in progress, the in-flight set;
* `State.runUiCommand`, `State.stale` : what a request returns, and whether it asks for a refresh;
* `step`, `system` : the transitions, one for each locked section;
* `Exclusive`, `exclusive_reachable` : at most one command for each key is in flight;
* `State.quiet` : no command is running when the cache is invalidated;
* `Fresh`, `fresh_reachable` : every cached or coming result is of a command started after the last invalidation.

The cache and the in-flight set have a lock each, and a request, a refresh and an invalidation take them one after the
other, so other threads run in between. `invalidations` counts the invalidations; a command and the entry it leaves
remember the count at the start of the command.
-/

namespace CocoaWay.CommandCache
open Lib

/-! ## The cache -/

section Cache

/-- `UI_COMMAND_CACHE_TTL`, in milliseconds. -/
def uiCommandCacheTtl : Nat := 10000

/-- `UI_COMMAND_LOADING`. -/
def uiCommandLoading : List Char := "Loading runtime data...".toList

/-- `UiCommandCacheEntry`. -/
structure Entry (ω : Type) where
  completedAt : Nat
  result : Except (List Char) ω
  startedIn : Nat

/-- A call of `refresh_ui_command` on its way, or its background thread. -/
inductive Task (κ : Type) where
  /-- `run_ui_command` found the entry stale and has not taken the lock of the in-flight set. -/
  | requested (key : κ)
  /-- The key is in flight, its command not started. -/
  | spawned (key : κ)
  /-- `execute_ui_command`. -/
  | running (key : κ) (startedIn : Nat)
  /-- The result is in the cache, the key still in flight. -/
  | stored (key : κ)
  deriving DecidableEq

structure State (κ ω : Type) where
  cache : Table κ (Entry ω)
  refreshing : List κ
  tasks : List (Task κ)
  now : Nat
  invalidations : Nat

def State.new {κ ω : Type} : State κ ω :=
  { cache := ∅, refreshing := [], tasks := [], now := 0, invalidations := 0 }

inductive Event (κ ω : Type) where
  /-- `run_ui_command` reads the cache. -/
  | request (key : κ)
  /-- `refresh_ui_command` takes the lock of the in-flight set. -/
  | refresh (key : κ)
  | start (key : κ)
  /-- The command ends and its result goes into the cache. -/
  | store (key : κ) (startedIn : Nat) (result : Except (List Char) ω)
  /-- The key leaves the in-flight set. -/
  | finish (key : κ)
  /-- `invalidate_ui_command_cache`. -/
  | invalidate
  | tick

variable {κ ω : Type} [DecidableEq κ]

/-- What `run_ui_command` returns. -/
def State.runUiCommand (s : State κ ω) (key : κ) : Except (List Char) ω :=
  match s.cache.get key with
  | some entry => entry.result
  | none => .error uiCommandLoading

/-- The entry is missing or older than its time to live. -/
def State.stale (s : State κ ω) (key : κ) : Bool :=
  (s.cache.get key).all fun entry => decide (uiCommandCacheTtl ≤ s.now - entry.completedAt)

/-- A task of the state takes a step. -/
def State.advance (s : State κ ω) (task : Task κ) (tasks : List (Task κ)) : Option (State κ ω) :=
  (Lib.advance task tasks s.tasks).map fun tasks => { s with tasks := tasks }

/-- The transitions. -/
def step (s : State κ ω) : Event κ ω → Option (State κ ω)
  | .request key => if s.stale key then some { s with tasks := .requested key :: s.tasks } else some s
  | .refresh key =>
    if key ∈ s.refreshing then s.advance (.requested key) []
    else (s.advance (.requested key) [.spawned key]).map fun s' => { s' with refreshing := key :: s.refreshing }
  | .start key => s.advance (.spawned key) [.running key s.invalidations]
  | .store key startedIn result =>
    (s.advance (.running key startedIn) [.stored key]).map fun s' =>
      { s' with cache := s.cache.set key { completedAt := s.now, result := result, startedIn := startedIn } }
  | .finish key =>
    (s.advance (.stored key) []).map fun s' => { s' with refreshing := s.refreshing.erase key }
  | .invalidate => some { s with cache := ∅, invalidations := s.invalidations + 1 }
  | .tick => some { s with now := s.now + 1 }

/-- The cache of the application, empty at its start. -/
def system (κ ω : Type) [DecidableEq κ] : System (State κ ω) (Event κ ω) := ⟨.new, step⟩

end Cache

variable {κ ω : Type} [DecidableEq κ] {s s' : State κ ω}

/-! ## One command for each key -/

/-- The task holds the key in flight. -/
def Task.inFlight (key : κ) : Task κ → Nat
  | .requested _ => 0
  | .spawned key' | .running key' _ | .stored key' => if key' = key then 1 else 0

/-- The in-flight set is the keys of the background threads. -/
def Exclusive (s : State κ ω) : Prop := ∀ key, total (Task.inFlight key) s.tasks = s.refreshing.count key ∧
  s.refreshing.count key ≤ 1

theorem advance_eq_some {task : Task κ} {tasks : List (Task κ)} (h : s.advance task tasks = some s') :
    ∃ l, Lib.advance task tasks s.tasks = some l ∧ s' = { s with tasks := l } := by
  obtain ⟨l, hl, rfl⟩ := Option.map_eq_some_iff.1 h
  exact ⟨l, hl, rfl⟩

theorem Exclusive.advance (h : Exclusive s) {task task' : Task κ} (ha : s.advance task [task'] = some s')
    (hk : ∀ key, task'.inFlight key = task.inFlight key) : Exclusive s' := by
  obtain ⟨l, hl, rfl⟩ := advance_eq_some ha
  intro key
  have := total_advance hl (Task.inFlight key)
  rw [total_cons, total_nil, hk] at this
  obtain ⟨heq, hle⟩ := h key
  exact ⟨by dsimp only; omega, hle⟩

theorem Exclusive.step (h : Exclusive s) {e : Event κ ω} (hst : step s e = some s') : Exclusive s' := by
  cases e with
  | request key =>
    simp only [CommandCache.step] at hst
    split at hst <;> cases hst
    · intro key'
      rw [total_cons]
      exact ⟨(Nat.zero_add _).trans (h key').1, (h key').2⟩
    · exact h
  | refresh key =>
    simp only [CommandCache.step] at hst
    split at hst
    next =>
      obtain ⟨l, hl, rfl⟩ := advance_eq_some hst
      intro key'
      have := total_advance hl (Task.inFlight key')
      simp only [Task.inFlight, total_nil] at this
      obtain ⟨heq, hle⟩ := h key'
      exact ⟨by dsimp only; omega, hle⟩
    next hnot =>
      obtain ⟨t, ht, rfl⟩ := Option.map_eq_some_iff.1 hst
      obtain ⟨l, hl, rfl⟩ := advance_eq_some ht
      intro key'
      have := total_advance hl (Task.inFlight key')
      simp only [Task.inFlight, total_cons, total_nil] at this
      obtain ⟨heq, hle⟩ := h key'
      dsimp only
      rw [List.count_cons]
      by_cases hk : key = key'
      · subst hk
        have := List.count_eq_zero.2 hnot
        simp only [beq_self_eq_true, if_true] at *
        omega
      · simp only [hk, beq_iff_eq, if_false] at *
        omega
  | start key => exact h.advance hst fun _ => rfl
  | store key startedIn result =>
    obtain ⟨t, ht, rfl⟩ := Option.map_eq_some_iff.1 hst
    have hx : Exclusive t := h.advance ht fun _ => rfl
    exact hx
  | finish key =>
    obtain ⟨t, ht, rfl⟩ := Option.map_eq_some_iff.1 hst
    obtain ⟨l, hl, rfl⟩ := advance_eq_some ht
    intro key'
    have := total_advance hl (Task.inFlight key')
    simp only [Task.inFlight, total_nil] at this
    obtain ⟨heq, hle⟩ := h key'
    dsimp only
    by_cases hk : key = key'
    · subst hk
      rw [if_pos rfl] at this
      rw [List.count_erase_self]
      omega
    · rw [if_neg hk] at this
      rw [List.count_erase_of_ne (Ne.symm hk)]
      omega
  | invalidate | tick =>
    cases hst
    exact h

theorem exclusive_reachable (h : (system κ ω).Reachable s) : Exclusive s :=
  h.invariant (fun _ => ⟨rfl, Nat.zero_le 1⟩) fun _ _ _ hi hst => hi.step hst

/-! ## Results and invalidations -/

/-- The task runs a command. -/
def Task.isRunning : Task κ → Bool
  | .running _ _ => true
  | _ => false

/-- No command is running when the cache is invalidated. -/
def State.quiet (s : State κ ω) : Event κ ω → Bool
  | .invalidate => !s.tasks.any Task.isRunning
  | _ => true

/-- Every cached or coming result is of a command started after the last invalidation. -/
structure Fresh (s : State κ ω) : Prop where
  cached : ∀ key entry, s.cache.get key = some entry → entry.startedIn = s.invalidations
  running : ∀ key startedIn, .running key startedIn ∈ s.tasks → startedIn = s.invalidations

theorem Fresh.new : Fresh (State.new : State κ ω) :=
  ⟨fun key _ h => absurd h (by simp [State.new]), fun _ _ h => absurd h List.not_mem_nil⟩

theorem Fresh.advance (h : Fresh s) {task : Task κ} {tasks : List (Task κ)} (ha : s.advance task tasks = some s')
    (hr : ∀ key startedIn, .running key startedIn ∈ tasks → startedIn = s.invalidations) : Fresh s' := by
  obtain ⟨l, hl, rfl⟩ := advance_eq_some ha
  refine ⟨h.cached, fun key startedIn hm => ?_⟩
  rcases mem_advance hl hm with hm | hm
  · exact hr key startedIn hm
  · exact h.running key startedIn hm

theorem Fresh.step (h : Fresh s) {e : Event κ ω} (hq : s.quiet e = true) (hst : step s e = some s') : Fresh s' := by
  cases e with
  | request key =>
    simp only [CommandCache.step] at hst
    split at hst <;> cases hst
    · refine ⟨h.cached, fun key' startedIn hm => ?_⟩
      rcases List.mem_cons.1 hm with hm | hm
      · cases hm
      · exact h.running key' startedIn hm
    · exact h
  | refresh key =>
    simp only [CommandCache.step] at hst
    split at hst
    · exact h.advance hst fun _ _ hm => absurd hm List.not_mem_nil
    · obtain ⟨t, ht, rfl⟩ := Option.map_eq_some_iff.1 hst
      have ht := h.advance ht fun _ _ hm => by cases List.mem_singleton.1 hm
      exact ⟨ht.cached, ht.running⟩
  | start key =>
    refine h.advance hst fun _ _ hm => ?_
    cases List.mem_singleton.1 hm
    rfl
  | store key startedIn result =>
    obtain ⟨t, ht, rfl⟩ := Option.map_eq_some_iff.1 hst
    obtain ⟨l, hl, rfl⟩ := advance_eq_some ht
    have hstarted : startedIn = s.invalidations := h.running key startedIn (Lib.advance_eq_some.1 hl).1
    have ht := h.advance ht fun _ _ hm => by cases List.mem_singleton.1 hm
    refine ⟨fun key' entry hget => ?_, ht.running⟩
    dsimp only at hget ⊢
    rw [Table.get_set] at hget
    split at hget
    · cases hget
      exact hstarted
    · exact h.cached key' entry hget
  | finish key =>
    obtain ⟨t, ht, rfl⟩ := Option.map_eq_some_iff.1 hst
    have ht := h.advance ht fun _ _ hm => absurd hm List.not_mem_nil
    exact ⟨ht.cached, ht.running⟩
  | invalidate =>
    cases hst
    refine ⟨fun key entry hget => absurd hget (by simp), fun key startedIn hm => ?_⟩
    simp only [State.quiet, Bool.not_eq_true', List.any_eq_false] at hq
    exact absurd rfl (hq _ hm)
  | tick =>
    cases hst
    exact ⟨h.cached, h.running⟩

theorem fresh_reachable (h : (system κ ω).ReachableWhere (fun s e => s.quiet e = true) s) : Fresh s :=
  h.invariant Fresh.new fun _ _ _ hi hq hst => hi.step hq hst

end CocoaWay.CommandCache
