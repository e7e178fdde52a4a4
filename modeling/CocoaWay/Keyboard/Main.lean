import CocoaWay.Lib.Trace
import Mathlib.Data.Finset.Sort

/-!
# Key transitions of the focused window

* `KeyTransitionReducer` with `setOwner`, `focusLost`, `key`, `keyWithFocus`: which key transitions are forwarded, and
  which held keys are drained when the keyboard changes its owner;
* `Operation`, `Session`, `run` : any sequence of these calls with the transitions the clients see: the forwarded ones
  and the releases of the drained keys;
* `observe` : one key as a client sees it, up or down at an owner; `Accepts observe .up` is strict alternation with each
  release at the owner of its press (`alternates`, `last_of_accepts`);
* `run_accepts` : after every run, what was seen of a key leads to what the reducer records of it.
-/

namespace CocoaWay.Keyboard
open CocoaWay.Lib

inductive KeyTransition
  | pressed
  | released
  deriving DecidableEq

/-- Tracks accepted physical key transitions for one native window at a time. -/
structure KeyTransitionReducer (Owner : Type) where
  owner : Option Owner := none
  heldKeys : Finset Nat := ∅

namespace KeyTransitionReducer

variable {Owner : Type} [DecidableEq Owner]

/-- `set_owner`: changes ownership and returns the previous owner's held keys, sorted. -/
def setOwner (r : KeyTransitionReducer Owner) (owner : Option Owner) : KeyTransitionReducer Owner × List Nat :=
  if r.owner = owner then (r, [])
  else ({ owner := owner, heldKeys := ∅ }, r.heldKeys.sort)

/-- `focus_lost`: a stale loss event cannot release another owner's keys. -/
def focusLost (r : KeyTransitionReducer Owner) (owner : Owner) : KeyTransitionReducer Owner × List Nat :=
  if r.owner ≠ some owner then (r, [])
  else r.setOwner none

/-- `key`: the flag says whether the caller forwards this transition. -/
def key (r : KeyTransitionReducer Owner) (owner : Owner) (evdevKey : Nat) (transition : KeyTransition)
    (isRepeat : Bool) : KeyTransitionReducer Owner × Bool :=
  if r.owner ≠ some owner then (r, false)
  else match transition with
    | .pressed =>
      if isRepeat then (r, false)
      else ({ r with heldKeys := insert evdevKey r.heldKeys }, evdevKey ∉ r.heldKeys)
    | .released => ({ r with heldKeys := r.heldKeys.erase evdevKey }, evdevKey ∈ r.heldKeys)

/-- `key_with_focus`: no target means no new presses, but accepted releases still count. -/
def keyWithFocus (r : KeyTransitionReducer Owner) (owner : Owner) (evdevKey : Nat) (transition : KeyTransition)
    (isRepeat hasFocus : Bool) : KeyTransitionReducer Owner × Bool :=
  if !hasFocus && transition = .pressed then (r, false)
  else r.key owner evdevKey transition isRepeat

/-! ## What each call does -/

theorem setOwner_self (r : KeyTransitionReducer Owner) : r.setOwner r.owner = (r, []) := if_pos rfl

variable {r : KeyTransitionReducer Owner}

theorem setOwner_of_ne {owner : Option Owner} (h : r.owner ≠ owner) :
    r.setOwner owner = ({ owner := owner, heldKeys := ∅ }, r.heldKeys.sort) := if_neg h

theorem focusLost_of_ne {owner : Owner} (h : r.owner ≠ some owner) : r.focusLost owner = (r, []) := if_pos h

theorem focusLost_of_eq {owner : Owner} (h : r.owner = some owner) :
    r.focusLost owner = ({ owner := none, heldKeys := ∅ }, r.heldKeys.sort) := by
  unfold focusLost
  rw [if_neg (not_not.2 h), setOwner_of_ne (by rw [h]; exact Option.some_ne_none owner)]

/-- A key event either changes nothing and is not forwarded, or is a forwarded press of a key that is up, or a forwarded
release of a key that is held; a forwarded transition is at the owner. -/
theorem key_cases (r : KeyTransitionReducer Owner) (owner : Owner) (k : Nat) (t : KeyTransition) (isRepeat : Bool) :
    r.key owner k t isRepeat = (r, false) ∨
      r.owner = some owner ∧
        (t = .pressed ∧ k ∉ r.heldKeys ∧
            r.key owner k t isRepeat = ({ r with heldKeys := insert k r.heldKeys }, true) ∨
          t = .released ∧ k ∈ r.heldKeys ∧
            r.key owner k t isRepeat = ({ r with heldKeys := r.heldKeys.erase k }, true)) := by
  unfold key
  by_cases ho : r.owner = some owner
  · rw [if_neg (not_not.2 ho)]
    by_cases hk : k ∈ r.heldKeys
    · cases t with
      | pressed =>
        left
        cases isRepeat with
        | true => rfl
        | false => simp [hk]
      | released => exact Or.inr ⟨ho, Or.inr ⟨rfl, hk, by simp [hk]⟩⟩
    · have he : ({ r with heldKeys := r.heldKeys.erase k } : KeyTransitionReducer Owner) = r := by
        rw [Finset.erase_eq_of_notMem hk]
      cases t with
      | pressed =>
        cases isRepeat with
        | true => exact Or.inl rfl
        | false => exact Or.inr ⟨ho, Or.inl ⟨rfl, hk, by simp [hk]⟩⟩
      | released =>
        left
        show (({ r with heldKeys := r.heldKeys.erase k } : KeyTransitionReducer Owner), decide (k ∈ r.heldKeys)) = _
        rw [he, decide_eq_false hk]
  · exact Or.inl (if_pos ho)

theorem keyWithFocus_cases (r : KeyTransitionReducer Owner) (owner : Owner) (k : Nat) (t : KeyTransition)
    (isRepeat hasFocus : Bool) :
    r.keyWithFocus owner k t isRepeat hasFocus = (r, false) ∨
      r.keyWithFocus owner k t isRepeat hasFocus = r.key owner k t isRepeat := by
  unfold keyWithFocus
  split
  · exact Or.inl rfl
  · exact Or.inr rfl

end KeyTransitionReducer

/-! ## Runs -/

/-- A transition a client sees; `owner` is the window it was delivered to. -/
structure Mark (Owner : Type) where
  owner : Option Owner
  key : Nat
  transition : KeyTransition

/-- The calls of the reducer. -/
inductive Operation (Owner : Type)
  | setOwner (owner : Option Owner)
  | focusLost (owner : Owner)
  | key (owner : Owner) (evdevKey : Nat) (transition : KeyTransition) (isRepeat : Bool)
  | keyWithFocus (owner : Owner) (evdevKey : Nat) (transition : KeyTransition) (isRepeat hasFocus : Bool)

structure Session (Owner : Type) where
  keys : KeyTransitionReducer Owner := {}
  seen : List (Mark Owner) := []

variable {Owner : Type} [DecidableEq Owner]

namespace Session

omit [DecidableEq Owner] in
/-- The drained keys are released to the previous owner. -/
def drain (s : Session Owner) (result : KeyTransitionReducer Owner × List Nat) : Session Owner where
  keys := result.1
  seen := s.seen ++ result.2.map fun k => ⟨s.keys.owner, k, .released⟩

omit [DecidableEq Owner] in
/-- An accepted transition is forwarded to the window it came from. -/
def forward (s : Session Owner) (owner : Owner) (evdevKey : Nat) (transition : KeyTransition)
    (result : KeyTransitionReducer Owner × Bool) : Session Owner where
  keys := result.1
  seen := s.seen ++ if result.2 then [⟨some owner, evdevKey, transition⟩] else []

def apply (s : Session Owner) : Operation Owner → Session Owner
  | .setOwner owner => s.drain (s.keys.setOwner owner)
  | .focusLost owner => s.drain (s.keys.focusLost owner)
  | .key owner k t isRepeat => s.forward owner k t (s.keys.key owner k t isRepeat)
  | .keyWithFocus owner k t isRepeat hasFocus =>
    s.forward owner k t (s.keys.keyWithFocus owner k t isRepeat hasFocus)

/-- What was seen of one key. -/
def seenOf (s : Session Owner) (k : Nat) : List (Mark Owner) := s.seen.filter fun m => m.key = k

end Session

/-- Any sequence of calls on a new reducer. -/
def run (ops : List (Operation Owner)) : Session Owner := ops.foldl Session.apply {}

theorem run_snoc (ops : List (Operation Owner)) (op : Operation Owner) :
    run (ops ++ [op]) = (run ops).apply op := by
  unfold run
  rw [List.foldl_append]
  rfl

/-! ## One key as a client sees it -/

inductive KeyState (Owner : Type)
  | up
  | down (owner : Option Owner)

/-- Only a key that is up is pressed; only a key that is down is released, at the owner of its press. -/
def observe (state : KeyState Owner) (m : Mark Owner) : Option (KeyState Owner) :=
  match state, m.transition with
  | .up, .pressed => some (.down m.owner)
  | .down owner, .released => if m.owner = owner then some .up else none
  | _, _ => none

/-- Strictly press then release, each release at the owner of its press; the last press may be unreleased. -/
def Alternates : List (Mark Owner) → Prop
  | [] => True
  | [press] => press.transition = .pressed
  | press :: release :: rest =>
    press.transition = .pressed ∧ release.transition = .released ∧ release.owner = press.owner ∧ Alternates rest

variable {s : Session Owner} {state : KeyState Owner}

theorem observe_up {m : Mark Owner} (h : observe .up m = some state) :
    m.transition = .pressed ∧ state = .down m.owner := by
  unfold observe at h
  cases ht : m.transition with
  | pressed =>
    rw [ht] at h
    exact ⟨rfl, (Option.some.inj h).symm⟩
  | released => simp [ht] at h

theorem observe_down {m : Mark Owner} {owner : Option Owner}
    (h : observe (.down owner) m = some state) : m.transition = .released ∧ m.owner = owner ∧ state = .up := by
  unfold observe at h
  cases ht : m.transition with
  | pressed => simp [ht] at h
  | released =>
    simp only [ht] at h
    split at h
    · next ho => exact ⟨rfl, ho, (Option.some.inj h).symm⟩
    · cases h

theorem alternates : ∀ {marks : List (Mark Owner)} {state : KeyState Owner}, Accepts observe .up marks state →
    Alternates marks
  | [], _, _ => trivial
  | [press], _, h => by
    obtain ⟨n, hn, -⟩ := h.cons
    exact (observe_up hn).1
  | press :: release :: rest, _, h => by
    obtain ⟨n, hn, h'⟩ := h.cons
    obtain ⟨hp, rfl⟩ := observe_up hn
    obtain ⟨n', hn', hrest⟩ := h'.cons
    obtain ⟨hr, ho, rfl⟩ := observe_down hn'
    exact ⟨hp, hr, ho, alternates hrest⟩

/-- The last transition seen of a key says whether it is down, and where. -/
theorem last_of_accepts {marks : List (Mark Owner)} (h : Accepts observe .up marks state) (owner : Option Owner) :
    state = .down owner ↔ ∃ press, marks.getLast? = some press ∧ press.transition = .pressed ∧ press.owner = owner := by
  induction marks using List.reverseRecOn with
  | nil =>
    obtain rfl : KeyState.up = state := Option.some.inj h
    simp
  | append_singleton marks m _ =>
    obtain ⟨n, -, hm⟩ := h.split
    obtain ⟨n', hn', hnil⟩ := hm.cons
    obtain rfl : n' = state := Option.some.inj hnil
    rw [List.getLast?_concat]
    cases n with
    | up =>
      obtain ⟨hp, rfl⟩ := observe_up hn'
      simp [hp]
    | down o =>
      obtain ⟨hr, -, rfl⟩ := observe_down hn'
      simp [hr]

/-! ## Every run -/

/-- What the reducer records of a key. -/
def KeyTransitionReducer.keyState (r : KeyTransitionReducer Owner) (k : Nat) : KeyState Owner :=
  if k ∈ r.heldKeys then .down r.owner else .up

/-- What was seen of every key leads to what is recorded of it. -/
def Recorded (s : Session Owner) : Prop := ∀ k, Accepts observe .up (s.seenOf k) (s.keys.keyState k)

omit [DecidableEq Owner] in
theorem filter_drained (owner : Option Owner) (held : Finset Nat) (k : Nat) :
    ((held.sort).map fun k => (⟨owner, k, .released⟩ : Mark Owner)).filter (fun m => m.key = k) =
      if k ∈ held then [⟨owner, k, .released⟩] else [] := by
  rw [List.filter_map]
  have hf : ((fun m : Mark Owner => decide (m.key = k)) ∘ fun k => (⟨owner, k, .released⟩ : Mark Owner)) =
      fun k' => decide (k' = k) := rfl
  rw [hf, List.filter_eq]
  by_cases hk : k ∈ held
  · rw [if_pos hk, List.count_eq_one_of_mem (Finset.sort_nodup held _) ((Finset.mem_sort _).2 hk)]
    rfl
  · rw [if_neg hk, List.count_eq_zero_of_not_mem (fun h => hk ((Finset.mem_sort _).1 h))]
    rfl

/-- Draining the held keys releases each of them, at the owner of its press. -/
theorem Recorded.drain (h : Recorded s) (owner : Option Owner) :
    Recorded (s.drain ({ owner := owner, heldKeys := ∅ }, s.keys.heldKeys.sort)) := by
  intro k
  have hk := h k
  unfold Session.seenOf KeyTransitionReducer.keyState at hk ⊢
  show Accepts observe .up (List.filter _ (s.seen ++ _)) (if k ∈ (∅ : Finset Nat) then _ else _)
  rw [List.filter_append, filter_drained, if_neg (Finset.notMem_empty k)]
  by_cases hm : k ∈ s.keys.heldKeys
  · rw [if_pos hm] at hk ⊢
    exact hk.snoc (by simp [observe])
  · rw [if_neg hm] at hk ⊢
    simpa using hk

/-- A forwarded transition of a key that the observer allows, recorded for this key only. -/
theorem Recorded.forward (h : Recorded s) {owner : Owner} {k : Nat} {t : KeyTransition}
    {r : KeyTransitionReducer Owner} (hk : observe (s.keys.keyState k) ⟨some owner, k, t⟩ = some (r.keyState k))
    (hr : ∀ k', k' ≠ k → r.keyState k' = s.keys.keyState k') : Recorded (s.forward owner k t (r, true)) := by
  intro k'
  have hs := h k'
  unfold Session.seenOf at hs ⊢
  show Accepts observe .up (List.filter _ (s.seen ++ [_])) (r.keyState k')
  rw [List.filter_append]
  by_cases hk' : k' = k
  · subst hk'
    have hf : List.filter (fun m : Mark Owner => decide (m.key = k')) [⟨some owner, k', t⟩] =
        [⟨some owner, k', t⟩] := by simp
    rw [hf]
    exact hs.snoc hk
  · have hf : List.filter (fun m : Mark Owner => decide (m.key = k')) [⟨some owner, k, t⟩] = [] := by
      simp [Ne.symm hk']
    rw [hf, List.append_nil, hr k' hk']
    exact hs

omit [DecidableEq Owner] in
theorem forward_false (s : Session Owner) (owner : Owner) (k : Nat) (t : KeyTransition) :
    s.forward owner k t (s.keys, false) = s := by
  simp [Session.forward]

omit [DecidableEq Owner] in
theorem drain_nil (s : Session Owner) : s.drain (s.keys, []) = s := by
  simp [Session.drain]

theorem Recorded.key (h : Recorded s) (owner : Owner) (k : Nat) (t : KeyTransition)
    (isRepeat : Bool) : Recorded (s.forward owner k t (s.keys.key owner k t isRepeat)) := by
  rcases s.keys.key_cases owner k t isRepeat with he | ⟨ho, ⟨rfl, hm, he⟩ | ⟨rfl, hm, he⟩⟩
  · rw [he, forward_false]
    exact h
  · rw [he]
    refine h.forward ?_ fun k' hk' => ?_
    · simp [observe, KeyTransitionReducer.keyState, hm, ho]
    · simp [KeyTransitionReducer.keyState, hk']
  · rw [he]
    refine h.forward ?_ fun k' hk' => ?_
    · simp [observe, KeyTransitionReducer.keyState, hm, ho]
    · simp [KeyTransitionReducer.keyState, hk']

theorem Recorded.apply (h : Recorded s) : ∀ op, Recorded (s.apply op)
  | .setOwner owner => by
    show Recorded (s.drain (s.keys.setOwner owner))
    by_cases ho : s.keys.owner = owner
    · rw [← ho, KeyTransitionReducer.setOwner_self, drain_nil]
      exact h
    · rw [KeyTransitionReducer.setOwner_of_ne ho]
      exact h.drain owner
  | .focusLost owner => by
    show Recorded (s.drain (s.keys.focusLost owner))
    by_cases ho : s.keys.owner = some owner
    · rw [KeyTransitionReducer.focusLost_of_eq ho]
      exact h.drain none
    · rw [KeyTransitionReducer.focusLost_of_ne ho, drain_nil]
      exact h
  | .key owner k t isRepeat => h.key owner k t isRepeat
  | .keyWithFocus owner k t isRepeat hasFocus => by
    show Recorded (s.forward owner k t (s.keys.keyWithFocus owner k t isRepeat hasFocus))
    rcases s.keys.keyWithFocus_cases owner k t isRepeat hasFocus with he | he
    · rw [he, forward_false]
      exact h
    · rw [he]
      exact h.key owner k t isRepeat

theorem run_accepts (ops : List (Operation Owner)) : Recorded (run ops) := by
  induction ops using List.reverseRecOn with
  | nil => exact fun k => Accepts.nil _
  | append_singleton ops op ih =>
    rw [run_snoc]
    exact ih.apply op

/-! ## The guarantees -/

/-- The owner changes only with every held key drained, to the owner of its press. -/
theorem apply_owner_ne {op : Operation Owner} (h : (s.apply op).keys.owner ≠ s.keys.owner) :
    (s.apply op).keys.heldKeys = ∅ ∧
      (s.apply op).seen = s.seen ++ s.keys.heldKeys.sort.map fun k => ⟨s.keys.owner, k, .released⟩ := by
  have hkey : ∀ owner k t isRepeat, (s.keys.key owner k t isRepeat).1.owner = s.keys.owner := by
    intro owner k t isRepeat
    rcases s.keys.key_cases owner k t isRepeat with he | ⟨-, ⟨-, -, he⟩ | ⟨-, -, he⟩⟩ <;> rw [he]
  cases op with
  | setOwner owner =>
    have hne : s.keys.owner ≠ owner := by
      rintro rfl
      rw [Session.apply, KeyTransitionReducer.setOwner_self, drain_nil] at h
      exact h rfl
    rw [Session.apply, KeyTransitionReducer.setOwner_of_ne hne]
    exact ⟨rfl, rfl⟩
  | focusLost owner =>
    have heq : s.keys.owner = some owner := by
      by_contra hne
      rw [Session.apply, KeyTransitionReducer.focusLost_of_ne hne, drain_nil] at h
      exact h rfl
    rw [Session.apply, KeyTransitionReducer.focusLost_of_eq heq]
    exact ⟨rfl, rfl⟩
  | key owner k t isRepeat => exact absurd (hkey owner k t isRepeat) h
  | keyWithFocus owner k t isRepeat hasFocus =>
    rw [Session.apply] at h
    rcases s.keys.keyWithFocus_cases owner k t isRepeat hasFocus with he | he
    · rw [he, forward_false] at h
      exact absurd rfl h
    · rw [he] at h
      exact absurd (hkey owner k t isRepeat) h

structure Guarantees (s : Session Owner) : Prop where
  /-- Strictly press then release for each key, each release at the owner of its press. -/
  alternates : ∀ k, Alternates (s.seenOf k)
  /-- The held keys are those pressed and not yet released. -/
  held : ∀ k, k ∈ s.keys.heldKeys ↔ ∃ press, (s.seenOf k).getLast? = some press ∧ press.transition = .pressed
  /-- A held key belongs to the window it was pressed in. -/
  owned : ∀ k press, (s.seenOf k).getLast? = some press → press.transition = .pressed → press.owner = s.keys.owner
  /-- A new owner starts with no held key: those of the previous owner were all released to it. -/
  notTransferred : ∀ op, (s.apply op).keys.owner ≠ s.keys.owner → (s.apply op).keys.heldKeys = ∅ ∧
    (s.apply op).seen = s.seen ++ s.keys.heldKeys.sort.map fun k => ⟨s.keys.owner, k, .released⟩
  /-- A drain for the owning focus leaves no key held. -/
  drained : ∀ owner, s.keys.owner = some owner → (s.apply (.focusLost owner)).keys = { owner := none, heldKeys := ∅ }
  /-- A stale focus loss changes nothing. -/
  stale : ∀ owner, s.keys.owner ≠ some owner → s.apply (.focusLost owner) = s

/-- For every sequence of calls from any owners. -/
theorem keyTransitions_guarantees (ops : List (Operation Owner)) : Guarantees (run ops) where
  alternates := fun k => Keyboard.alternates (run_accepts ops k)
  held := by
    intro k
    have h := last_of_accepts (run_accepts ops k) (run ops).keys.owner
    unfold KeyTransitionReducer.keyState at h
    constructor
    · intro hk
      obtain ⟨press, hp, ht, -⟩ := h.1 (if_pos hk)
      exact ⟨press, hp, ht⟩
    · rintro ⟨press, hp, ht⟩
      have hd := (last_of_accepts (run_accepts ops k) press.owner).2 ⟨press, hp, ht, rfl⟩
      unfold KeyTransitionReducer.keyState at hd
      by_contra hk
      rw [if_neg hk] at hd
      cases hd
  owned := by
    intro k press hp ht
    have hd := (last_of_accepts (run_accepts ops k) press.owner).2 ⟨press, hp, ht, rfl⟩
    unfold KeyTransitionReducer.keyState at hd
    split at hd
    · exact (KeyState.down.inj hd).symm
    · cases hd
  notTransferred := fun _ h => apply_owner_ne h
  drained := by
    intro owner ho
    rw [Session.apply, KeyTransitionReducer.focusLost_of_eq ho]
    rfl
  stale := by
    intro owner ho
    rw [Session.apply, KeyTransitionReducer.focusLost_of_ne ho, drain_nil]

end CocoaWay.Keyboard
