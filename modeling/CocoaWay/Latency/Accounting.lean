import CocoaWay.Latency.Main
import Mathlib.Data.List.Forall2

/-!
# Latency traces: every attempt is counted once

* `Settles`, `Call.Counted` : how an attempt may be counted, and what a call has counted at each of its phases;
* `CallStep`, `stepCall_spec` : everything one step of a call may change;
* `Inv` : the admission word counts the active calls, the counters are the sums over the calls, the queue holds what was
  accepted and not yet written, and from closed and idle on nothing of this changes; `Inv.step`;
* `latencyTrace_guarantees` : what this means for the calls, the close and the summary.
-/

namespace CocoaWay.Latency
open Lib

variable {s s' : State} {c c' : Call}

/-! ## Calls -/

/-- An attempt without an event is rejected, one with an event is accepted or dropped. -/
inductive Settles : Attempt → Outcome → Prop
  | rejected : Settles none .rejected
  | accepted (event : TraceEvent) : Settles (some event) .accepted
  | dropped (event : TraceEvent) : Settles (some event) .dropped

/-- A refused call counts once, as late; an admitted call counts each of its attempts once, in order. -/
def Call.Counted (c : Call) : Prop :=
  match c.phase with
  | .entering _ | .refusing => c.outcomes = []
  | .recording todo => ∃ made, c.plan = made ++ todo ∧ List.Forall₂ Settles made c.outcomes
  | .dropping todo => ∃ made event, c.plan = made ++ some event :: todo ∧ List.Forall₂ Settles made c.outcomes
  | .refused => c.outcomes = [.late]
  | .finished => List.Forall₂ Settles c.plan c.outcomes

theorem forall₂_snoc {made : List Attempt} {outcomes : List Outcome} {a : Attempt} {o : Outcome}
    (h : List.Forall₂ Settles made outcomes) (ha : Settles a o) :
      List.Forall₂ Settles (made ++ [a]) (outcomes ++ [o]) :=
  List.rel_append h (List.Forall₂.cons ha List.Forall₂.nil)

/-- The number of attempts a call has counted so. -/
def Call.tally (o : Outcome) (c : Call) : Nat := c.outcomes.count o

@[simp] theorem tally_count (c : Call) (o o' : Outcome) (phase : Phase) :
    (c.count o phase).tally o' = c.tally o' + if o = o' then 1 else 0 := by
  unfold Call.tally Call.count
  rw [List.count_append, List.count_singleton]
  simp

/-- An unfinished call, counted. -/
def Call.live (c : Call) : Nat := if c.unfinished then 1 else 0

theorem countP_unfinished (calls : List Call) : calls.countP Call.unfinished = total Call.live calls := by
  induction calls with
  | nil => rfl
  | cons c calls ih =>
    rw [List.countP_cons, total_cons, ih, Nat.add_comm]
    rfl

/-- A call that was admitted, finished or not. -/
def Call.admitted (c : Call) : Nat :=
  match c.phase with
  | .recording _ | .dropping _ | .finished => 1
  | .entering _ | .refusing | .refused => 0

theorem active_le_live (c : Call) : c.active ≤ c.live := by
  unfold Call.active Call.live Call.unfinished
  cases c.phase <;> simp

/-! ## One step of a call -/

/-- What one step of a call may change. -/
structure CallStep (s s' : State) (c c' : Call) : Prop where
  calls : advance c [c'] s.calls = some s'.calls
  writer : s'.writer = s.writer ∧ s'.handles = s.handles ∧ s'.receiver = s.receiver ∧ s'.written = s.written
  dropped : s'.dropped + c.tally .dropped = s.dropped + c'.tally .dropped
  rejected : s'.rejected + c.tally .rejected = s.rejected + c'.tally .rejected
  late : s'.lateRecordCalls + c.tally .late = s.lateRecordCalls + c'.tally .late
  accepted : s'.accepted.length + c.tally .accepted = s.accepted.length + c'.tally .accepted
  counted : c.Counted → c'.Counted
  live : c'.live ≤ c.live
  loaded : ∀ state, c'.phase = .entering (some state) → state = s.admission
  /-- Admission while the capture is open, the end of an active call, or neither. -/
  word : s'.admission = s.admission ∧ c'.active = c.active ∨
    s'.admission = s.admission + 1 ∧ c.active = 0 ∧ c'.active = 1 ∧ isClosed s.admission = false ∨
    s'.admission = s.admission - 1 ∧ c.active = 1 ∧ c'.active = 0
  /-- A call is admitted only while the capture is open. -/
  admitted : c'.admitted = c.admitted ∨ c'.admitted = c.admitted + 1 ∧ isClosed s.admission = false
  /-- Only an active call enqueues, and only while the writer holds the queue. -/
  queue : s'.queue = s.queue ∧ s'.accepted = s.accepted ∨ c.active = 1 ∧ s.receiver = true ∧
    ∃ event, s'.queue = s.queue ++ [event] ∧ s'.accepted = s.accepted ++ [event]
  /-- Only an active call counts a drop or a rejection. -/
  idle : c.active = 0 → s'.dropped = s.dropped ∧ s'.rejected = s.rejected

theorem put_eq_some {t : State} (h : t.put c c' = some s') :
    ∃ calls, advance c [c'] t.calls = some calls ∧ s' = { t with calls := calls } := by
  obtain ⟨calls, hadv, rfl⟩ := Option.map_eq_some_iff.1 h
  exact ⟨calls, hadv, rfl⟩

theorem callStep_enter {phase : Phase} (h : s.put c { c with phase := phase } = some s')
    (hc : c.Counted → Call.Counted { c with phase := phase }) (hl : c.live = 1) (ha : c.active = 0)
    (ha' : Call.active { c with phase := phase } = 0) (had : Call.admitted { c with phase := phase } = c.admitted)
    (hload : ∀ state, phase = .entering (some state) → state = s.admission) :
    CallStep s s' c { c with phase := phase } := by
  obtain ⟨calls, hadv, rfl⟩ := put_eq_some h
  refine ⟨hadv, ⟨rfl, rfl, rfl, rfl⟩, rfl, rfl, rfl, rfl, hc, ?_, hload, Or.inl ⟨rfl, ha'.trans ha.symm⟩,
    Or.inl had, Or.inl ⟨rfl, rfl⟩, fun _ => ⟨rfl, rfl⟩⟩
  rw [hl]
  unfold Call.live
  split <;> omega

theorem stepCall_spec {spurious : Bool} (h : stepCall s c spurious = some s') : ∃ c', CallStep s s' c c' := by
  unfold stepCall at h
  cases hp : c.phase with
  | entering loaded =>
    simp only [hp] at h
    have hl : c.live = 1 := by simp [Call.live, Call.unfinished, hp]
    have ha : c.active = 0 := by simp [Call.active, hp]
    have had : c.admitted = 0 := by simp [Call.admitted, hp]
    have hc : c.Counted → c.outcomes = [] := fun hc => by simpa only [Call.Counted, hp] using hc
    cases loaded with
    | none =>
      exact ⟨_, callStep_enter h hc hl ha rfl had.symm fun state he => by cases he; rfl⟩
    | some state =>
      dsimp only at h
      split at h
      · exact ⟨_, callStep_enter h hc hl ha rfl had.symm nofun⟩
      · next hopen =>
        split at h
        · cases h
        · split at h
          · next hcas =>
            obtain ⟨calls, hadv, rfl⟩ := put_eq_some h
            refine ⟨_, hadv, ⟨rfl, rfl, rfl, rfl⟩, rfl, rfl, rfl, rfl, fun hcc => ?_, ?_, nofun,
              Or.inr (Or.inl ⟨?_, ha, rfl, ?_⟩), Or.inr ⟨?_, ?_⟩, Or.inl ⟨rfl, rfl⟩, fun _ => ⟨rfl, rfl⟩⟩
            · exact ⟨[], rfl, by rw [hc hcc]; exact List.Forall₂.nil⟩
            · rw [hl]
              rfl
            · show state + 1 = s.admission + 1
              rw [hcas.1]
            · rw [hcas.1]
              simpa using hopen
            · rw [had]
              rfl
            · rw [hcas.1]
              simpa using hopen
          · exact ⟨_, callStep_enter h hc hl ha rfl had.symm fun state he => by cases he; rfl⟩
  | refusing =>
    simp only [hp] at h
    have hc : c.Counted → c.outcomes = [] := fun hc => by simpa only [Call.Counted, hp] using hc
    obtain ⟨calls, hadv, rfl⟩ := put_eq_some h
    refine ⟨_, hadv, ⟨rfl, rfl, rfl, rfl⟩, ?_, ?_, ?_, ?_, fun hcc => ?_, ?_, nofun, Or.inl ⟨rfl, ?_⟩,
      Or.inl ?_, Or.inl ⟨rfl, rfl⟩, fun _ => ⟨rfl, rfl⟩⟩
    · simp
    · simp
    · simp only [tally_count]
      simp only [if_true]
      omega
    · simp
    · show c.outcomes ++ [Outcome.late] = [Outcome.late]
      rw [hc hcc]
      rfl
    · exact Nat.zero_le _
    · simp [Call.active, hp, Call.count]
    · simp [Call.admitted, hp, Call.count]
  | recording todo =>
    simp only [hp] at h
    have hc : c.Counted → ∃ made, c.plan = made ++ todo ∧ List.Forall₂ Settles made c.outcomes := fun hc => by
      simpa only [Call.Counted, hp] using hc
    have hl : c.live = 1 := by simp [Call.live, Call.unfinished, hp]
    have ha : c.active = 1 := by simp [Call.active, hp]
    have had : c.admitted = 1 := by simp [Call.admitted, hp]
    have hidle : ∀ {p : Prop}, c.active = 0 → p := fun h0 => absurd (ha.symm.trans h0) Nat.one_ne_zero
    match todo, h, hc with
    | [], h, hc =>
      dsimp only at h
      obtain ⟨calls, hadv, rfl⟩ := put_eq_some h
      refine ⟨_, hadv, ⟨rfl, rfl, rfl, rfl⟩, rfl, rfl, rfl, rfl, fun hcc => ?_, Nat.zero_le _, nofun,
        Or.inr (Or.inr ⟨rfl, ha, rfl⟩), Or.inl had.symm, Or.inl ⟨rfl, rfl⟩, hidle⟩
      show List.Forall₂ Settles c.plan c.outcomes
      obtain ⟨made, hplan, hmade⟩ := hc hcc
      rw [hplan, List.append_nil]
      exact hmade
    | none :: todo, h, hc =>
      dsimp only at h
      obtain ⟨calls, hadv, rfl⟩ := put_eq_some h
      refine ⟨_, hadv, ⟨rfl, rfl, rfl, rfl⟩, ?_, ?_, ?_, ?_, fun hcc => ?_, ?_, nofun, Or.inl ⟨rfl, ha.symm⟩,
        Or.inl had.symm, Or.inl ⟨rfl, rfl⟩, hidle⟩
      · simp
      · simp only [tally_count, if_true]
        omega
      · simp
      · simp
      · obtain ⟨made, hplan, hmade⟩ := hc hcc
        exact ⟨made ++ [none], by rw [List.append_assoc]; exact hplan, forall₂_snoc hmade .rejected⟩
      · rw [hl]
        rfl
    | some event :: todo, h, hc =>
      dsimp only at h
      split at h
      · next hroom =>
        rw [Bool.and_eq_true] at hroom
        obtain ⟨calls, hadv, rfl⟩ := put_eq_some h
        refine ⟨_, hadv, ⟨rfl, rfl, rfl, rfl⟩, ?_, ?_, ?_, ?_, fun hcc => ?_, ?_, nofun, Or.inl ⟨rfl, ha.symm⟩,
          Or.inl had.symm, Or.inr ⟨ha, hroom.1, event, rfl, rfl⟩, hidle⟩
        · simp
        · simp
        · simp
        · simp only [tally_count, if_true, List.length_append, List.length_singleton]
          omega
        · obtain ⟨made, hplan, hmade⟩ := hc hcc
          exact ⟨made ++ [some event], by rw [List.append_assoc]; exact hplan, forall₂_snoc hmade (.accepted event)⟩
        · rw [hl]
          rfl
      · obtain ⟨calls, hadv, rfl⟩ := put_eq_some h
        refine ⟨_, hadv, ⟨rfl, rfl, rfl, rfl⟩, rfl, rfl, rfl, rfl, fun hcc => ?_, ?_, nofun,
          Or.inl ⟨rfl, ha.symm⟩, Or.inl had.symm, Or.inl ⟨rfl, rfl⟩, hidle⟩
        · obtain ⟨made, hplan, hmade⟩ := hc hcc
          exact ⟨made, event, hplan, hmade⟩
        · rw [hl]
          rfl
  | dropping todo =>
    simp only [hp] at h
    have ha : c.active = 1 := by simp [Call.active, hp]
    have had : c.admitted = 1 := by simp [Call.admitted, hp]
    obtain ⟨calls, hadv, rfl⟩ := put_eq_some h
    refine ⟨_, hadv, ⟨rfl, rfl, rfl, rfl⟩, ?_, ?_, ?_, ?_, fun hcc => ?_, ?_, nofun, Or.inl ⟨rfl, ha.symm⟩,
      Or.inl had.symm, Or.inl ⟨rfl, rfl⟩, fun h0 => absurd (ha.symm.trans h0) Nat.one_ne_zero⟩
    · simp only [tally_count, if_true]
      omega
    · simp
    · simp
    · simp
    · simp only [Call.Counted, hp] at hcc
      obtain ⟨made, event, hplan, hmade⟩ := hcc
      exact ⟨made ++ [some event], by rw [List.append_assoc]; exact hplan, forall₂_snoc hmade (.dropped event)⟩
    · have hl : c.live = 1 := by simp [Call.live, Call.unfinished, hp]
      rw [hl]
      rfl
  | refused => simp [hp] at h
  | finished => simp [hp] at h

/-! ## The invariant -/

/-- The event the writer has taken and not yet written. -/
def Writer.inHand : Writer → List TraceEvent
  | .writing event => [event]
  | _ => []

/-- The writer gave the queue up. -/
def Writer.gone : Writer → Bool
  | .returned _ | .failing | .failed => true
  | _ => false

/-- The writer has observed closed and idle, and not gone back to the head of its loop. -/
def Writer.isSealed : Writer → Bool
  | .draining | .drained _ | .readDropped _ _ | .readRejected _ _ _ | .flushing _ | .returned _ => true
  | _ => false

/-- What the writer has found out of the queue and the counters. -/
def Writer.Reads (s : State) : Writer → Prop
  | .drained _ => s.queue = []
  | .readDropped _ dropped => s.queue = [] ∧ dropped = s.dropped
  | .readRejected _ dropped rejected => s.queue = [] ∧ dropped = s.dropped ∧ rejected = s.rejected
  | .flushing summary => s.queue = [] ∧ summary.dropped = s.dropped ∧ summary.rejected = s.rejected
  | .returned summary => s.accepted = s.written ∧ summary.dropped = s.dropped ∧ summary.rejected = s.rejected
  | _ => True

structure Inv (s : State) : Prop where
  bound : total Call.live s.calls + 1 < CAPTURE_CLOSED
  word : ∃ closed, s.admission = encode closed (total Call.active s.calls)
  loaded : ∀ c ∈ s.calls, ∀ state, c.phase = .entering (some state) →
    isClosed state = true ∨ state + 1 < CAPTURE_CLOSED
  counted : ∀ c ∈ s.calls, c.Counted
  dropped : s.dropped = total (Call.tally .dropped) s.calls
  rejected : s.rejected = total (Call.tally .rejected) s.calls
  late : s.lateRecordCalls = total (Call.tally .late) s.calls
  accepted : s.accepted.length = total (Call.tally .accepted) s.calls
  fifo : s.receiver = true → s.accepted = s.written ++ s.writer.inHand ++ s.queue
  receiver : s.receiver = false → s.writer.gone = true
  sealed : s.writer.isSealed = true → closedAndIdle s.admission = true
  reads : s.writer.Reads s

theorem Inv.active_lt (h : Inv s) : total Call.active s.calls + 1 < CAPTURE_CLOSED := by
  have hle : total Call.active s.calls ≤ total Call.live s.calls := total_mono fun c _ => active_le_live c
  have := h.bound
  omega

theorem Inv.idle_of_sealed (h : Inv s) (hs : s.writer.isSealed = true) :
    isClosed s.admission = true ∧ total Call.active s.calls = 0 := by
  obtain ⟨closed, hw⟩ := h.word
  have hlt : total Call.active s.calls < CAPTURE_CLOSED := by
    have := h.active_lt
    omega
  have hci := h.sealed hs
  rw [hw, closedAndIdle_encode hlt] at hci
  rw [hw, isClosed_encode hlt]
  exact hci

theorem Inv.call {spurious : Bool} (h : Inv s) (hst : stepCall s c spurious = some s') : Inv s' := by
  obtain ⟨c', hc⟩ := stepCall_spec hst
  obtain ⟨hmem, -⟩ := advance_eq_some.1 hc.calls
  obtain ⟨hwriter, -, hreceiver, hwritten⟩ := hc.writer
  have hactive := total_advance hc.calls Call.active
  have hlive := total_advance hc.calls Call.live
  have hdropped := total_advance hc.calls (Call.tally .dropped)
  have hrejected := total_advance hc.calls (Call.tally .rejected)
  have hlate := total_advance hc.calls (Call.tally .late)
  have haccepted := total_advance hc.calls (Call.tally .accepted)
  simp only [total_cons, total_nil, Nat.add_zero] at hactive hlive hdropped hrejected hlate haccepted
  have hlt := h.active_lt
  have hle := charge_le_total Call.active hmem
  have hquiet : s.writer.isSealed = true → c.active = 0 := fun hs => by
    have := (h.idle_of_sealed hs).2
    omega
  obtain ⟨closed, hw⟩ := h.word
  have hword : s'.admission = encode closed (total Call.active s'.calls) := by
    rcases hc.word with ⟨he, ha⟩ | ⟨he, ha, ha', hopen⟩ | ⟨he, ha, ha'⟩
    · rw [he, hw, show total Call.active s'.calls = total Call.active s.calls by omega]
    · rw [hw, isClosed_encode (by omega)] at hopen
      subst hopen
      rw [he, hw, show total Call.active s'.calls = total Call.active s.calls + 1 by omega]
      rfl
    · rw [he, hw, show total Call.active s.calls = total Call.active s'.calls + 1 by omega]
      unfold encode
      omega
  refine ⟨?_, ⟨closed, hword⟩, ?_, ?_, ?_, ?_, ?_, ?_, ?_, ?_, ?_, ?_⟩
  · have := h.bound
    have := hc.live
    omega
  · intro d hd state hp
    rcases mem_advance hc.calls hd with hd | hd
    · obtain rfl := List.mem_singleton.1 hd
      obtain rfl := hc.loaded state hp
      rw [hw, isClosed_encode (by omega)]
      cases closed with
      | true => exact Or.inl rfl
      | false => exact Or.inr hlt
    · exact h.loaded d hd state hp
  · intro d hd
    rcases mem_advance hc.calls hd with hd | hd
    · obtain rfl := List.mem_singleton.1 hd
      exact hc.counted (h.counted c hmem)
    · exact h.counted d hd
  · have := hc.dropped
    have := h.dropped
    omega
  · have := hc.rejected
    have := h.rejected
    omega
  · have := hc.late
    have := h.late
    omega
  · have := hc.accepted
    have := h.accepted
    omega
  · intro hr
    have hf := h.fifo (hreceiver.symm.trans hr)
    rw [hwriter, hwritten]
    rcases hc.queue with ⟨hq, ha⟩ | ⟨-, -, event, hq, ha⟩
    · rw [hq, ha]
      exact hf
    · rw [hq, ha, hf, List.append_assoc]
  · rw [hreceiver, hwriter]
    exact h.receiver
  · rw [hwriter]
    intro hs
    have h0 := hquiet hs
    have hclosed := (h.idle_of_sealed hs).1
    rcases hc.word with ⟨he, -⟩ | ⟨-, -, -, hopen⟩ | ⟨-, ha, -⟩
    · rw [he]
      exact h.sealed hs
    · rw [hclosed] at hopen
      cases hopen
    · omega
  · rw [hwriter]
    by_cases hs : s.writer.isSealed = true
    · have h0 := hquiet hs
      obtain ⟨hd, hrj⟩ := hc.idle h0
      have hqa : s'.queue = s.queue ∧ s'.accepted = s.accepted := by
        rcases hc.queue with hq | ⟨ha, -⟩
        · exact hq
        · omega
      have hreads := h.reads
      unfold Writer.Reads at hreads ⊢
      rw [hd, hrj, hqa.1, hqa.2, hwritten]
      exact hreads
    · cases hwr : s.writer <;> simp [hwr, Writer.isSealed] at hs <;> exact trivial

theorem closedAndIdle_close {active : Nat} (h : active < CAPTURE_CLOSED) {closed : Bool}
    (hi : closedAndIdle (encode closed active) = true) : closedAndIdle (close (encode closed active)) = true := by
  rw [closedAndIdle_encode h] at hi
  rw [close_encode h, closedAndIdle_encode h]
  exact ⟨rfl, hi.2⟩

theorem Inv.close (h : Inv s) : Inv { s with admission := Latency.close s.admission } := by
  obtain ⟨closed, hw⟩ := h.word
  have hlt : total Call.active s.calls < CAPTURE_CLOSED := by
    have := h.active_lt
    omega
  refine { h with word := ⟨true, ?_⟩, sealed := fun hs => ?_, reads := ?_ }
  · show Latency.close s.admission = _
    rw [hw, close_encode hlt]
  · show closedAndIdle (Latency.close s.admission) = true
    have hs' := h.sealed hs
    rw [hw] at hs' ⊢
    exact closedAndIdle_close hlt hs'
  · have hreads := h.reads
    unfold Writer.Reads at hreads ⊢
    exact hreads

/-- A step of the writer that only changes where it is. -/
theorem Inv.moves (h : Inv s) {w : Writer} (hi : w.inHand = s.writer.inHand) (hg : s.writer.gone = true → w.gone = true)
    (hs : w.isSealed = true → closedAndIdle s.admission = true) (hr : w.Reads s) : Inv { s with writer := w } := by
  refine { h with
    fifo := fun hrec => ?_
    receiver := fun hrec => hg (h.receiver hrec)
    sealed := hs
    reads := ?_ }
  · show s.accepted = s.written ++ w.inHand ++ s.queue
    rw [hi]
    exact h.fifo hrec
  · unfold Writer.Reads at hr ⊢
    exact hr

/-- The writer takes an event out of the queue. -/
theorem Inv.take (h : Inv s) {event : TraceEvent} {queue : List TraceEvent} (hq : s.queue = event :: queue)
    (hi : s.writer.inHand = []) (hg : s.writer.gone = false) :
    Inv { s with queue := queue, writer := .writing event } := by
  refine { h with fifo := fun hrec => ?_, receiver := fun hrec => ?_, sealed := nofun, reads := trivial }
  · show s.accepted = s.written ++ [event] ++ queue
    have hf := h.fifo hrec
    rw [hi, hq] at hf
    simpa using hf
  · have hg' := h.receiver hrec
    rw [hg] at hg'
    cases hg'

theorem Inv.giveUp (h : Inv s) {w : Writer} (hg : w.gone = true)
    (hs : w.isSealed = true → closedAndIdle s.admission = true)
    (hr : w.Reads { s with receiver := false, queue := [], writer := w }) :
    Inv { s with receiver := false, queue := [], writer := w } :=
  { h with fifo := nofun, receiver := fun _ => hg, sealed := hs, reads := hr }

theorem Inv.writer {ok : Bool} (h : Inv s) (hst : stepWriter s ok = some s') : Inv s' := by
  have hreads := h.reads
  have hsealed := h.sealed
  have hrec := h.receiver
  have hfifo := h.fifo
  unfold stepWriter at hst
  cases hw : s.writer with
  | top =>
    simp only [hw] at hst
    obtain rfl := Option.some.inj hst
    split
    · next hci => exact h.moves (by rw [hw]; rfl) (by rw [hw]; exact nofun) (fun _ => hci) trivial
    · exact h.moves (by rw [hw]; rfl) (by rw [hw]; exact nofun) nofun trivial
  | waiting =>
    simp only [hw] at hst
    split at hst
    · next hq =>
      obtain rfl := Option.some.inj hst
      exact h.take hq (by rw [hw]; rfl) (by rw [hw]; rfl)
    · obtain rfl := Option.some.inj hst
      split
      · exact h.moves (by rw [hw]; rfl) (by rw [hw]; exact nofun) nofun trivial
      · exact h.moves (by rw [hw]; rfl) (by rw [hw]; exact nofun) nofun trivial
  | disconnected =>
    simp only [hw] at hst
    obtain rfl := Option.some.inj hst
    have hm := h.moves (w := .top) (by rw [hw]; rfl) (by rw [hw]; exact nofun) nofun trivial
    exact hm.close
  | draining =>
    simp only [hw] at hst
    rw [hw] at hsealed
    split at hst
    · next hq =>
      obtain rfl := Option.some.inj hst
      exact h.take hq (by rw [hw]; rfl) (by rw [hw]; rfl)
    · next hq =>
      obtain rfl := Option.some.inj hst
      exact h.moves (by rw [hw]; rfl) (by rw [hw]; exact nofun) hsealed hq
  | writing event =>
    simp only [hw] at hst
    split at hst
    · obtain rfl := Option.some.inj hst
      refine { h with fifo := fun hr => ?_, receiver := fun hr => ?_, sealed := nofun, reads := trivial }
      · show s.accepted = s.written ++ [event] ++ [] ++ s.queue
        have hf := hfifo hr
        rw [hw] at hf
        rw [List.append_nil]
        exact hf
      · have hg := hrec hr
        rw [hw] at hg
        cases hg
    · obtain rfl := Option.some.inj hst
      exact h.giveUp rfl nofun trivial
  | drained gone =>
    simp only [hw] at hst
    obtain rfl := Option.some.inj hst
    rw [hw] at hsealed hreads
    exact h.moves (by rw [hw]; rfl) (by rw [hw]; exact nofun) hsealed ⟨hreads, rfl⟩
  | readDropped gone dropped =>
    simp only [hw] at hst
    obtain rfl := Option.some.inj hst
    rw [hw] at hsealed hreads
    exact h.moves (by rw [hw]; rfl) (by rw [hw]; exact nofun) hsealed ⟨hreads.1, hreads.2, rfl⟩
  | readRejected gone dropped rejected =>
    simp only [hw] at hst
    obtain rfl := Option.some.inj hst
    rw [hw] at hsealed hreads
    exact h.moves (by rw [hw]; rfl) (by rw [hw]; exact nofun) hsealed hreads
  | flushing summary =>
    simp only [hw] at hst
    rw [hw] at hsealed hreads hrec hfifo
    split at hst
    · obtain rfl := Option.some.inj hst
      refine h.giveUp rfl hsealed ⟨?_, hreads.2⟩
      have hr : s.receiver = true := by
        by_contra hr
        cases hrec (by simpa using hr)
      have hf := hfifo hr
      rw [hreads.1] at hf
      simpa [Writer.inHand] using hf
    · obtain rfl := Option.some.inj hst
      exact h.giveUp rfl nofun trivial
  | returned summary => simp [hw] at hst
  | failing =>
    simp only [hw] at hst
    obtain rfl := Option.some.inj hst
    have hm := h.moves (w := .failed) (by rw [hw]; rfl) (fun _ => rfl) nofun trivial
    exact hm.close
  | failed => simp [hw] at hst

theorem Inv.start (h : Inv s) (plan : List Attempt) (hb : s.calls.countP Call.unfinished + 2 < CAPTURE_CLOSED) :
    Inv { s with calls := { plan := plan, phase := .entering none } :: s.calls } := by
  rw [countP_unfinished] at hb
  refine { h with
    bound := ?_, word := ?_, loaded := ?_, counted := ?_, dropped := ?_, rejected := ?_, late := ?_, accepted := ?_,
    reads := ?_ }
  · show total Call.live (_ :: s.calls) + 1 < CAPTURE_CLOSED
    rw [total_cons]
    have hl : Call.live { plan := plan, phase := .entering none } = 1 := rfl
    omega
  · obtain ⟨closed, hw⟩ := h.word
    refine ⟨closed, hw.trans ?_⟩
    show _ = encode closed (total Call.active (_ :: s.calls))
    rw [total_cons]
    exact congrArg (encode closed) (Nat.zero_add _).symm
  · intro c hc state hp
    rcases List.mem_cons.1 hc with rfl | hc
    · cases hp
    · exact h.loaded c hc state hp
  · intro c hc
    rcases List.mem_cons.1 hc with rfl | hc
    · exact rfl
    · exact h.counted c hc
  · exact h.dropped.trans (Nat.zero_add _).symm
  · exact h.rejected.trans (Nat.zero_add _).symm
  · exact h.late.trans (Nat.zero_add _).symm
  · exact h.accepted.trans (Nat.zero_add _).symm
  · have hreads := h.reads
    unfold Writer.Reads at hreads ⊢
    exact hreads

theorem Inv.withHandles (h : Inv s) (n : Nat) : Inv { s with handles := n } := by
  refine { h with reads := ?_ }
  have hreads := h.reads
  unfold Writer.Reads at hreads ⊢
  exact hreads

theorem Inv.step {e : Event} (h : Inv s) (hst : system.step s e = some s') : Inv s' := by
  change Latency.step s e = some s' at hst
  cases e with
  | start plan =>
    simp only [Latency.step] at hst
    split at hst
    · next hg =>
      obtain rfl := Option.some.inj hst
      rw [Bool.and_eq_true, decide_eq_true_eq, decide_eq_true_eq] at hg
      exact h.start plan hg.2
    · cases hst
  | call c spurious => exact h.call hst
  | writer ok => exact h.writer hst
  | close =>
    obtain rfl := Option.some.inj hst
    exact h.close
  | cloneHandle =>
    simp only [Latency.step] at hst
    split at hst
    · obtain rfl := Option.some.inj hst
      exact h.withHandles _
    · cases hst
  | dropHandle =>
    simp only [Latency.step] at hst
    split at hst
    · obtain rfl := Option.some.inj hst
      exact h.withHandles _
    · cases hst

theorem inv_of_reachable (h : system.Reachable s) : Inv s := by
  refine System.Reachable.invariant (I := Inv) ?_ (fun s e s' hi hst => hi.step hst) h
  exact
    { bound := by decide
      word := ⟨false, rfl⟩
      loaded := nofun
      counted := nofun
      dropped := rfl
      rejected := rfl
      late := rfl
      accepted := rfl
      fifo := fun _ => rfl
      receiver := nofun
      sealed := nofun
      reads := trivial }

/-! ## The guarantees -/

theorem isClosed_close (h : Inv s) : isClosed (Latency.close s.admission) = true := by
  obtain ⟨closed, hw⟩ := h.word
  have hlt := h.active_lt
  rw [hw, close_encode (by omega), isClosed_encode (by omega)]

theorem admission_of_writer {ok : Bool} (hst : stepWriter s ok = some s') :
    s'.calls = s.calls ∧ (s'.admission = s.admission ∨ s'.admission = Latency.close s.admission) := by
  unfold stepWriter at hst
  cases hw : s.writer <;> simp only [hw] at hst
  case waiting | draining =>
    split at hst <;> obtain rfl := Option.some.inj hst <;> exact ⟨rfl, Or.inl rfl⟩
  case writing | flushing =>
    split at hst <;> obtain rfl := Option.some.inj hst <;> exact ⟨rfl, Or.inl rfl⟩
  case returned | failed => cases hst
  case disconnected | failing =>
    obtain rfl := Option.some.inj hst
    exact ⟨rfl, Or.inr rfl⟩
  all_goals
    obtain rfl := Option.some.inj hst
    exact ⟨rfl, Or.inl rfl⟩

/-- After the close no call is admitted, and the capture stays closed. -/
theorem Inv.closed_step {e : Event} (h : Inv s) (hclosed : isClosed s.admission = true)
    (hst : system.step s e = some s') :
    isClosed s'.admission = true ∧ total Call.admitted s'.calls = total Call.admitted s.calls := by
  have hkept : isClosed s'.admission = true := by
    have h' := h.step hst
    change Latency.step s e = some s' at hst
    cases e with
    | start plan =>
      simp only [Latency.step] at hst
      split at hst
      · obtain rfl := Option.some.inj hst
        exact hclosed
      · cases hst
    | call c spurious =>
      obtain ⟨c', hc⟩ := stepCall_spec hst
      obtain ⟨closed, hw⟩ := h.word
      obtain ⟨closed', hw'⟩ := h'.word
      have hlt := h.active_lt
      have hlt' := h'.active_lt
      rw [hw, isClosed_encode (by omega)] at hclosed
      rw [hw', isClosed_encode (by omega)]
      subst hclosed
      cases closed' with
      | true => rfl
      | false =>
        -- the word of a closed capture is not below the top bit after one step
        unfold encode at hw hw'
        simp only [if_true, Bool.false_eq_true, if_false, Nat.add_zero] at hw hw'
        rcases hc.word with ⟨he, -⟩ | ⟨he, -⟩ | ⟨he, ha, -⟩
        · omega
        · omega
        · have hle := charge_le_total Call.active (advance_eq_some.1 hc.calls).1
          omega
    | writer ok =>
      rcases (admission_of_writer hst).2 with he | he
      · rw [he]
        exact hclosed
      · rw [he]
        exact isClosed_close h
    | close =>
      obtain rfl := Option.some.inj hst
      exact isClosed_close h
    | cloneHandle | dropHandle =>
      simp only [Latency.step] at hst
      split at hst
      · obtain rfl := Option.some.inj hst
        exact hclosed
      · cases hst
  refine ⟨hkept, ?_⟩
  change Latency.step s e = some s' at hst
  cases e with
  | start plan =>
    simp only [Latency.step] at hst
    split at hst
    · obtain rfl := Option.some.inj hst
      exact Nat.zero_add _
    · cases hst
  | call c spurious =>
    obtain ⟨c', hc⟩ := stepCall_spec hst
    have hadm := total_advance hc.calls Call.admitted
    simp only [total_cons, total_nil, Nat.add_zero] at hadm
    rcases hc.admitted with he | ⟨-, hopen⟩
    · omega
    · rw [hclosed] at hopen
      cases hopen
  | writer ok => rw [(admission_of_writer hst).1]
  | close =>
    obtain rfl := Option.some.inj hst
    rfl
  | cloneHandle | dropHandle =>
    simp only [Latency.step] at hst
    split at hst
    · obtain rfl := Option.some.inj hst
      rfl
    · cases hst

/-- The summary the writer is about to write, or has returned. -/
def Writer.summary : Writer → Option CaptureSummary
  | .flushing summary | .returned summary => some summary
  | _ => none

structure Guarantees (s : State) : Prop where
  /-- Each call counts its attempts once, in order, as it makes them; a refused call counts once, as late. -/
  counted : ∀ c ∈ s.calls, c.Counted
  /-- The counters and the accepted events are what all calls have counted. -/
  totals : s.accepted.length = total (Call.tally .accepted) s.calls ∧ s.dropped = total (Call.tally .dropped) s.calls ∧
    s.rejected = total (Call.tally .rejected) s.calls ∧ s.lateRecordCalls = total (Call.tally .late) s.calls
  /-- After the close no call is admitted: nothing but what was admitted before is accepted, dropped or rejected. -/
  closed : isClosed s.admission = true → ∀ e s', system.step s e = some s' →
    isClosed s'.admission = true ∧ total Call.admitted s'.calls = total Call.admitted s.calls
  /-- When the drained summary is written, and ever after, every accepted event is written, in order; every admitted
  call has finished; and the summary has all their drops and rejections. -/
  summary : ∀ summary, s.writer.summary = some summary →
    isClosed s.admission = true ∧ s.written = s.accepted ∧
      (∀ c ∈ s.calls, c.admitted = 1 → c.phase = .finished ∧ List.Forall₂ Settles c.plan c.outcomes) ∧
      summary.dropped = total (Call.tally .dropped) s.calls ∧ summary.rejected = total (Call.tally .rejected) s.calls
  /-- The assertion on the number of active calls never fails. -/
  assertion : ∀ c ∈ s.calls, ∀ state, c.phase = .entering (some state) →
    isClosed state = true ∨ state < CAPTURE_CLOSED - 1

theorem Inv.summary (h : Inv s) {summary : CaptureSummary} (hs : s.writer.summary = some summary) :
    s.writer.isSealed = true ∧ s.written = s.accepted ∧ summary.dropped = s.dropped ∧
      summary.rejected = s.rejected := by
  have hreads := h.reads
  have hfifo := h.fifo
  have hrec := h.receiver
  cases hw : s.writer with
  | flushing t =>
    rw [hw] at hs hreads hfifo hrec
    obtain rfl : t = summary := Option.some.inj hs
    have hr : s.receiver = true := by
      by_contra hr
      cases hrec (by simpa using hr)
    have hf := hfifo hr
    rw [hreads.1] at hf
    exact ⟨rfl, by simpa [Writer.inHand] using hf.symm, hreads.2⟩
  | returned t =>
    rw [hw] at hs hreads
    obtain rfl : t = summary := Option.some.inj hs
    exact ⟨rfl, hreads.1.symm, hreads.2⟩
  | _ => simp [hw, Writer.summary] at hs

theorem finished_of_idle (hadm : c.admitted = 1) (hidle : c.active = 0) : c.phase = .finished := by
  unfold Call.admitted at hadm
  unfold Call.active at hidle
  cases hp : c.phase <;> simp [hp] at hadm hidle ⊢

/-- For every interleaving of recording calls, closes and the writer. -/
theorem latencyTrace_guarantees (h : system.Reachable s) : Guarantees s := by
  have hi := inv_of_reachable h
  refine ⟨hi.counted, ⟨hi.accepted, hi.dropped, hi.rejected, hi.late⟩, fun hc e s' hst => hi.closed_step hc hst,
    fun summary hs => ?_, fun c hc state hp => ?_⟩
  · obtain ⟨hsealed, hwritten, hd, hr⟩ := hi.summary hs
    obtain ⟨hclosed, hidle⟩ := hi.idle_of_sealed hsealed
    refine ⟨hclosed, hwritten, fun c hc hadm => ?_, hd.trans hi.dropped, hr.trans hi.rejected⟩
    have hfin := finished_of_idle hadm (total_eq_zero.1 hidle c hc)
    have hcounted := hi.counted c hc
    unfold Call.Counted at hcounted
    rw [hfin] at hcounted
    exact ⟨hfin, hcounted⟩
  · refine (hi.loaded c hc state hp).imp_right fun hlt => ?_
    omega

/-- One call records an event and a rejected one, the capture is closed, a late call follows, and the writer returns. -/
def traceRun : List Event :=
  let plan := record .surfaceCommit 5 {} ++ record .gpuStarted 6 {}
  [.start plan, .call { plan := plan, phase := .entering none } false,
    .call { plan := plan, phase := .entering (some 0) } false, .close,
    .call { plan := plan, phase := .recording plan } false,
    .call { plan := plan, phase := .recording [none], outcomes := [.accepted] } false,
    .call { plan := plan, phase := .recording [], outcomes := [.accepted, .rejected] } false,
    .start plan, .call { plan := plan, phase := .entering none } false,
    .call { plan := plan, phase := .entering (some CAPTURE_CLOSED) } false,
    .call { plan := plan, phase := .refusing } false,
    .writer true, .writer true, .writer true, .writer true, .writer true, .writer true, .writer true, .writer true,
    .writer true]

theorem latencyTrace_guarantees_returned : ∃ s, system.Reachable s ∧
    s.writer = .returned ⟨0, 1, 1, false⟩ ∧ Guarantees s := by
  have hrun : (system.run system.init traceRun).any
      (fun s => decide (s.writer = .returned ⟨0, 1, 1, false⟩)) = true := by decide
  obtain ⟨s, hs, hw⟩ := System.exists_reachable hrun
  exact ⟨s, hs, of_decide_eq_true hw, latencyTrace_guarantees hs⟩

end CocoaWay.Latency
