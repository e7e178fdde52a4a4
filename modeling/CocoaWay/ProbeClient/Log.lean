import CocoaWay.ProbeClient.Marker

/-!
# What the log of a probe client says

* `pending`, `held`, `content`, `width`, `commits` : the buffers, as the compositor has them;
* `inputs`, `visuals`, `chunks` : the events that were delivered, and those that each frame is the first to show;
* `shown`, `commitRows` : the marker of a frame, and the records of commits;
* `visuals_sorted` : the numbers of the events decrease, from the last one;
* `Describes`, `describes_sorted`, `describes_cover` : ranges of chunks are apart, and have all of them.

The last action of a log is its first entry.
-/

namespace CocoaWay.ProbeClient
open InputProbe (Row Marker)

variable {object : Object} {r : Received} {log : List Action} {row : Row}

/-! ## Buffers -/

/-- The buffer that is attached and not yet committed. -/
@[grind] def pending : List Action → Option Object
  | .attach object :: _ => some object
  | .commit :: _ => none
  | _ :: log => pending log
  | [] => none

def Received.releases (r : Received) (object : Object) : Bool :=
  match r.message with
  | .release _ => r.sender = object
  | _ => false

/-- The compositor has a buffer from its commit until the client hears of its release. -/
def held (object : Object) : List Action → Bool
  | .commit :: log => decide (pending log = some object) || held object log
  | .delivered r :: log => !r.releases object && held object log
  | _ :: log => held object log
  | [] => false

/-- The bytes of the file of a buffer. -/
def content (object : Object) : List Action → List UInt8
  | .create object' width height :: log =>
    if object' = object then List.replicate (width.toNat * height.toNat * 4) 0 else content object log
  | .write object' bytes :: log =>
    if object' = object then bytes ++ (content object log).drop bytes.length else content object log
  | _ :: log => content object log
  | [] => []

def width (object : Object) : List Action → Int
  | .create object' width' _ :: log => if object' = object then width'.toNat else width object log
  | _ :: log => width object log
  | [] => 0

/-- The frames, each with the width of its buffer and what was in it. -/
def commits : List Action → List (Int × List UInt8)
  | .commit :: log =>
    match pending log with
    | some object => (width object log, content object log) :: commits log
    | none => commits log
  | _ :: log => commits log
  | [] => []

/-- The marker of a frame, as the host reads it and the analysis takes it. -/
def shown (frame : Int × List UInt8) : Option Marker :=
  (decode frame.1 frame.2).bind fun payload => InputProbe.marker (.bytes payload)

/-! ## Events -/

def Message.isInput : Message → Bool
  | .keyboard _ _ => true
  | .pointer _ _ => true
  | _ => false

def KeyboardEvent.isVisual : KeyboardEvent → Bool
  | .key _ _ _ _ => true
  | _ => false

def PointerEvent.isVisual : PointerEvent → Bool
  | .button _ _ _ _ => true
  | .motion _ _ => true
  | .enter _ _ => true
  | .leave _ => true
  | .axis _ _ _ => true
  | _ => false

/-- The picture shows the event. -/
def Message.isVisual : Message → Bool
  | .keyboard _ event => event.any KeyboardEvent.isVisual
  | .pointer _ event => event.any PointerEvent.isVisual
  | _ => false

/-- How many events of devices were delivered. -/
@[grind] def inputs : List Action → Nat
  | .delivered r :: log => inputs log + if r.message.isInput then 1 else 0
  | _ :: log => inputs log
  | [] => 0

/-- The numbers of the visual events after the last frame. -/
@[grind] def fresh : List Action → List Nat
  | .delivered r :: log => if r.message.isVisual then (inputs log + 1) :: fresh log else fresh log
  | .commit :: log => if (pending log).isSome then [] else fresh log
  | _ :: log => fresh log
  | [] => []

/-- The numbers of the visual events before each frame and after the one before it. -/
def chunks : List Action → List (List Nat)
  | .commit :: log => if (pending log).isSome then fresh log :: chunks log else chunks log
  | _ :: log => chunks log
  | [] => []

def isCommitRow (row : Row) : Bool := row.get "record" = .str "frame_commit"

def commitRows : List Action → List Row
  | .record row :: log => if isCommitRow row then row :: commitRows log else commitRows log
  | _ :: log => commitRows log
  | [] => []

theorem isInput_of_isVisual {message : Message} (h : message.isVisual = true) : message.isInput = true := by
  cases message with
  | keyboard => rfl
  | pointer => rfl
  | _ => cases h

/-- The numbers of the events decrease, and none is after the last event. -/
theorem events_sorted (log : List Action) :
    (fresh log ++ (chunks log).flatten).Pairwise (· > ·) ∧ ∀ n ∈ fresh log ++ (chunks log).flatten, 0 < n ∧
      n ≤ inputs log := by
  induction log with
  | nil => exact ⟨.nil, nofun⟩
  | cons action log ih =>
    obtain ⟨hsorted, hle⟩ := ih
    cases action with
    | delivered r =>
      change ((if r.message.isVisual then (inputs log + 1) :: fresh log else fresh log) ++ _).Pairwise _ ∧
        ∀ n ∈ (if r.message.isVisual then (inputs log + 1) :: fresh log else fresh log) ++ _, 0 < n ∧ n ≤ inputs log + _
      split
      next hvisual =>
        rw [if_pos (isInput_of_isVisual hvisual), List.cons_append, List.pairwise_cons]
        refine ⟨⟨fun n hn => Nat.lt_succ_of_le (hle n hn).2, hsorted⟩, fun n hn => ?_⟩
        rcases List.mem_cons.1 hn with rfl | hn
        · exact ⟨Nat.succ_pos _, Nat.le_refl _⟩
        · exact ⟨(hle n hn).1, (hle n hn).2.trans (Nat.le_succ _)⟩
      · exact ⟨hsorted, fun n hn => ⟨(hle n hn).1, (hle n hn).2.trans (Nat.le_add_right _ _)⟩⟩
    | commit =>
      change ((if (pending log).isSome then [] else fresh log) ++
          (if (pending log).isSome then fresh log :: chunks log else chunks log).flatten).Pairwise _ ∧
        ∀ n ∈ (if (pending log).isSome then [] else fresh log) ++
          (if (pending log).isSome then fresh log :: chunks log else chunks log).flatten, 0 < n ∧ n ≤ inputs log
      split
      · rw [List.nil_append, List.flatten_cons]
        exact ⟨hsorted, hle⟩
      · exact ⟨hsorted, hle⟩
    | _ => exact ⟨hsorted, hle⟩

/-! ## Ranges -/

/-- The count, the first and the last of some events, from the last one. -/
def Describes (m : Marker) (events : List Nat) : Prop :=
  m.applied = events.length ∧ m.first = events.getLast?.getD 0 ∧ m.last = events.head?.getD 0

theorem exists_of_forall₂ {α β : Type} {R : α → β → Prop} {l : List α} {l' : List β} (h : List.Forall₂ R l l') :
    ∀ a ∈ l, ∃ b ∈ l', R a b := by
  induction h with
  | nil => nofun
  | cons hab _ ih =>
    refine List.forall_mem_cons.2 ⟨⟨_, List.mem_cons_self, hab⟩, fun a ha => ?_⟩
    obtain ⟨b, hb, hR⟩ := ih a ha
    exact ⟨b, List.mem_cons_of_mem _ hb, hR⟩

variable {m : Marker} {ms : List Marker} {events : List Nat} {groups : List (List Nat)}

theorem Describes.ends_mem (h : Describes m events) (hpos : 0 < m.applied) :
    ∃ first ∈ events, ∃ last ∈ events, m.first = first ∧ m.last = last := by
  obtain ⟨happlied, hfirst, hlast⟩ := h
  have hne : events ≠ [] := by
    rintro rfl
    rw [happlied] at hpos
    cases hpos
  refine ⟨events.getLast hne, List.getLast_mem hne, events.head hne, List.head_mem hne, ?_, ?_⟩
  · rw [hfirst, List.getLast?_eq_some_getLast hne]
    rfl
  · rw [hlast, List.head?_eq_some_head hne]
    rfl

theorem Describes.contains (h : Describes m events) (hsorted : events.Pairwise (· > ·)) {n : Nat} (hn : n ∈ events) :
    m.first ≤ n ∧ n ≤ m.last := by
  obtain ⟨-, hfirst, hlast⟩ := h
  have hne := List.ne_nil_of_mem hn
  rw [List.getLast?_eq_some_getLast hne] at hfirst
  rw [List.head?_eq_some_head hne] at hlast
  rw [hfirst, hlast]
  constructor
  · have hle : events.getLast hne ≤ n := by
      rw [← List.dropLast_append_getLast hne] at hn hsorted
      rcases List.mem_append.1 hn with hn | hn
      · exact ((List.pairwise_append.1 hsorted).2.2 n hn _ (List.mem_singleton_self _)).le
      · exact (List.mem_singleton.1 hn).ge
    exact_mod_cast hle
  · have hle : n ≤ events.head hne := by
      cases events with
      | nil => exact absurd rfl hne
      | cons a events =>
        rcases List.mem_cons.1 hn with rfl | hn
        · exact Nat.le_refl _
        · exact ((List.pairwise_cons.1 hsorted).1 n hn).le
    exact_mod_cast hle

/-- The ranges of later markers are after those of earlier ones. -/
theorem describes_sorted (h : List.Forall₂ Describes ms groups) (hsorted : groups.flatten.Pairwise (· > ·)) :
    (ms.filter fun m => 0 < m.applied).Pairwise fun later earlier => earlier.last < later.first := by
  induction h with
  | nil => exact .nil
  | @cons m events ms groups hm hms ih =>
    rw [List.flatten_cons, List.pairwise_append] at hsorted
    obtain ⟨-, hrest, hapart⟩ := hsorted
    rw [List.filter_cons]
    split
    next hpos =>
      refine List.pairwise_cons.2 ⟨fun m' hm' => ?_, ih hrest⟩
      obtain ⟨hmem, hpos'⟩ := List.mem_filter.1 hm'
      obtain ⟨events', hevents', hdescribes⟩ := exists_of_forall₂ hms m' hmem
      obtain ⟨first, hfirst, -, -, hfirsteq, -⟩ := hm.ends_mem (of_decide_eq_true hpos)
      obtain ⟨-, -, last, hlast, -, hlasteq⟩ := hdescribes.ends_mem (of_decide_eq_true hpos')
      rw [hfirsteq, hlasteq]
      exact_mod_cast hapart first hfirst last (List.mem_flatten.2 ⟨events', hevents', hlast⟩)
    · exact ih hrest

theorem describes_cover (h : List.Forall₂ Describes ms groups) (hsorted : groups.flatten.Pairwise (· > ·)) {n : Nat}
    (hn : n ∈ groups.flatten) : ∃ m ∈ ms, m.first ≤ n ∧ n ≤ m.last := by
  obtain ⟨events, hevents, hn⟩ := List.mem_flatten.1 hn
  obtain ⟨m, hm, hdescribes⟩ := exists_of_forall₂ (List.Forall₂.flip (R := flip Describes) h) events hevents
  exact ⟨m, hm, hdescribes.contains ((List.pairwise_flatten.1 hsorted).1 events hevents) hn⟩

end CocoaWay.ProbeClient
