import CocoaWay.EventSignal.Main

/-!
# Workers that wait for capacity

* `Op.waits`, `Op.holdsNotification` : the waiting calls, and those a notification is on its way to;
* `Stuck` : a worker waits while capacity is free and nothing is left that would notify it;
* `State.passesOn` : a notified call that leaves without a credit leaves nobody waiting for free capacity;
* `Covered`, `Covered.step` : while somebody waits, the capacity is taken or notifications are on their way for what is
  free of it, kept by every event that meets the condition;
* `backpressure_guarantees` : no such run gets stuck;
* `backpressure_stuck` : capacity hints can use up every notification.
-/

namespace CocoaWay.EventSignal
open Lib

variable {μ : Type*} [DecidableEq μ] {s s' : State μ} {op op' : Op μ} {ops pool : List (Op μ)}

/-! ## Waiting and notified calls -/

/-- The call waits on `received`. -/
def Op.waits : Op μ → Nat
  | .blocked _ _ | .hintBlocked => 1
  | _ => 0

/-- The call was notified and has not taken the lock again. -/
def Op.holdsNotification : Op μ → Nat
  | .notified _ _ | .hintNotified => 1
  | _ => 0

omit [DecidableEq μ] in
theorem waits_of_notify (h : op.notify = some op') :
    op.waits = 1 ∧ op'.waits = 0 ∧ op.holdsNotification = 0 ∧ op'.holdsNotification = 1 := by
  cases op <;> simp only [Op.notify, reduceCtorEq, Option.some.injEq] at h <;> subst h <;> exact ⟨rfl, rfl, rfl, rfl⟩

omit [DecidableEq μ] in
theorem waits_of_rouse (h : op.rouse = some op') :
    op.waits = 1 ∧ op'.waits = 0 ∧ op.holdsNotification = 0 ∧ op'.holdsNotification = 0 := by
  cases op <;> simp only [Op.rouse, reduceCtorEq, Option.some.injEq] at h <;> subst h <;> exact ⟨rfl, rfl, rfl, rfl⟩

omit [DecidableEq μ] in
theorem waiting_iff : op.waiting = true ↔ 0 < op.waits := by
  cases op <;> simp [Op.waiting, Op.notify, Op.waits]

omit [DecidableEq μ] in
theorem any_waiting_iff : ops.any Op.waiting = true ↔ 0 < total Op.waits ops := by
  rw [List.any_eq_true, total_pos]
  simp only [waiting_iff]

/-- A notification reaches a waiting call if there is one. -/
theorem total_notifyOne {waiter : Option (Op μ)} (h : notifyOne pool waiter = some ops) :
    (total Op.waits pool = 0 ∧ ops = pool) ∨
    (total Op.waits ops + 1 = total Op.waits pool ∧
      total Op.holdsNotification ops = total Op.holdsNotification pool + 1) := by
  cases waiter with
  | none =>
    simp only [notifyOne] at h
    split at h
    next => cases h
    next hnone =>
      cases h
      rw [any_waiting_iff] at hnone
      exact Or.inl ⟨by omega, rfl⟩
  | some op =>
    obtain ⟨op', hn, h⟩ := Option.bind_eq_some_iff.1 h
    obtain ⟨hw, hw', hh, hh'⟩ := waits_of_notify hn
    have hwaits := total_advance h Op.waits
    have hholds := total_advance h Op.holdsNotification
    rw [total_singleton] at hwaits hholds
    exact Or.inr ⟨by omega, by omega⟩

omit [DecidableEq μ] in
theorem total_waits_notifyAll (ops : List (Op μ)) : total Op.waits (notifyAll ops) = 0 := by
  rw [total_eq_zero]
  intro x hx
  obtain ⟨op, -, rfl⟩ := List.mem_map.1 hx
  cases op <;> rfl

/-! ## The condition and the invariant -/

/-- Nothing is left that would notify a worker that waits for capacity while capacity is free. -/
structure Stuck (s : State μ) : Prop where
  blocked : ∃ op ∈ s.ops, op.waiting = true
  free : s.messages < maxPendingWorkerMessages
  unnotified : ∀ op ∈ s.ops, op.holdsNotification = 0
  drained : s.queue = []

/-- The capacity is taken, nobody waits for it, or the receiver is gone. -/
def State.unwanted (s : State μ) : Bool :=
  s.disconnected || decide (maxPendingWorkerMessages ≤ s.messages) || !s.ops.any Op.waiting

/-- A notified call that leaves without a credit, a capacity hint or a send past its deadline, leaves nobody waiting for
free capacity. -/
def State.passesOn (s : State μ) : Event μ → Bool
  | .tryAdmit (.notified _ .after) true _ | .recheck .hintNotified _ => s.unwanted
  | _ => true

/-- While somebody waits, the capacity is taken, but for what notifications are on their way. -/
structure Covered (s : State μ) : Prop where
  gone : s.disconnected = true → total Op.waits s.ops = 0
  covered : 0 < total Op.waits s.ops → maxPendingWorkerMessages ≤ s.messages + total Op.holdsNotification s.ops

omit [DecidableEq μ] in
theorem Covered.new : Covered (State.new : State μ) :=
  ⟨fun _ => rfl, fun h => absurd h (Nat.lt_irrefl 0)⟩

omit [DecidableEq μ] in
/-- Fewer calls wait and no less is taken or on its way. -/
theorem Covered.mono (h : Covered s) (hd : s'.disconnected = s.disconnected)
    (hw : total Op.waits s'.ops ≤ total Op.waits s.ops)
    (hc : s.messages + total Op.holdsNotification s.ops ≤ s'.messages + total Op.holdsNotification s'.ops) :
    Covered s' := by
  refine ⟨fun hg => ?_, fun hpos => ?_⟩
  · have := h.gone (hd ▸ hg)
    omega
  · have := h.covered (by omega)
    omega

omit [DecidableEq μ] in
/-- A call blocks only while the capacity is taken. -/
theorem Covered.of_full (hd : s.disconnected = false) (hf : maxPendingWorkerMessages ≤ s.messages) : Covered s :=
  ⟨fun hg => absurd hg (by simp [hd]), fun _ => Nat.le_add_right_of_le hf⟩

omit [DecidableEq μ] in
theorem Covered.of_none (h : total Op.waits s.ops = 0) : Covered s :=
  ⟨fun _ => h, fun hpos => by omega⟩

/-- A notified call leaves while its notification is not wanted. -/
theorem Covered.leave (h : Covered s) (hu : s.unwanted = true) (ha : advance op [] s.ops = some ops)
    (hs : s'.ops = ops) (hm : s'.messages = s.messages) (hd : s'.disconnected = s.disconnected) : Covered s' := by
  have hw : total Op.waits s'.ops ≤ total Op.waits s.ops := by
    have := total_advance ha Op.waits
    rw [total_nil] at this
    rw [hs]
    omega
  simp only [State.unwanted, Bool.or_eq_true, decide_eq_true_eq, Bool.not_eq_true', or_assoc] at hu
  rcases hu with hg | hf | hn
  · have := h.gone hg
    exact Covered.of_none (by omega)
  · refine ⟨fun hg => ?_, fun _ => by omega⟩
    have := h.gone (hd ▸ hg)
    omega
  · rw [← Bool.not_eq_true, any_waiting_iff] at hn
    exact Covered.of_none (by omega)

/-! ## Steps -/

theorem Covered.messageReceived (h : Covered s) {waiter : Option (Op μ)}
    (hst : messageReceived s waiter = some s') : Covered s' := by
  rcases messageReceived_cases hst with ⟨-, rfl⟩ | ⟨hpos, ops, hn, rfl⟩
  · exact ⟨h.gone, h.covered⟩
  · rcases total_notifyOne hn with ⟨hnone, rfl⟩ | ⟨hw, hh⟩
    · exact Covered.of_none hnone
    · exact h.mono rfl (by dsimp only; omega) (by dsimp only; omega)

theorem Covered.sendAdmitted (h : Covered s) {message : μ} {deadline : Deadline} {expired late : Bool}
    (hw : op.waits = 0) (hh : op.holdsNotification ≤ 1)
    (hp : op.holdsNotification = 0 ∨ (deadline = .after → expired = true → s.unwanted = true))
    (hst : sendAdmitted s op message deadline expired late = some s') : Covered s' := by
  rcases sendAdmitted_cases hst with ⟨ops, hwhy, ha, rfl⟩ | ⟨ops, -, -, ha, rfl⟩ | ⟨ops, hd, hf, -, rfl⟩
  · rcases hp with hz | hp
    · have hwaits := total_advance ha Op.waits
      have hholds := total_advance ha Op.holdsNotification
      rw [total_nil] at hwaits hholds
      exact h.mono rfl (by dsimp only; omega) (by dsimp only; omega)
    · have hu : s.unwanted = true := by
        rcases hwhy with hg | ⟨hd, he⟩ | hf
        · simp [State.unwanted, hg]
        · exact hp hd he
        · simp [State.unwanted, hf]
      exact h.leave hu ha rfl rfl rfl
  · have hwaits := total_advance ha Op.waits
    have hholds := total_advance ha Op.holdsNotification
    have hres : Op.waits (.reserved message) = 0 ∧ Op.holdsNotification (.reserved message) = 0 := ⟨rfl, rfl⟩
    rw [total_singleton] at hwaits hholds
    exact h.mono rfl (by dsimp only; omega) (by dsimp only; omega)
  · exact Covered.of_full hd hf

theorem Covered.waitForCapacity (h : Covered s) {late : Bool} (hw : op.waits = 0)
    (hp : op.holdsNotification = 0 ∨ s.unwanted = true) (hst : waitForCapacity s op late = some s') : Covered s' := by
  rcases waitForCapacity_cases hst with ⟨ops, hd, hf, -, rfl⟩ | ⟨ops, ha, rfl⟩
  · exact Covered.of_full hd hf
  · rcases hp with hz | hu
    · have hwaits := total_advance ha Op.waits
      have hholds := total_advance ha Op.holdsNotification
      rw [total_nil] at hwaits hholds
      exact h.mono rfl (by dsimp only; omega) (by dsimp only; omega)
    · exact h.leave hu ha rfl rfl rfl

/-- A step of a call that neither waits nor holds a notification, before and after. -/
theorem Covered.advance (h : Covered s) {ys : List (Op μ)} (ha : advance op ys s.ops = some ops)
    (hw : op.waits = 0 ∧ total Op.waits ys = 0) (hh : op.holdsNotification = 0) (hs : s'.ops = ops)
    (hm : s'.messages = s.messages) (hd : s'.disconnected = s.disconnected) : Covered s' := by
  have hwaits := total_advance ha Op.waits
  have hholds := total_advance ha Op.holdsNotification
  exact h.mono hd (by rw [hs]; omega) (by rw [hs, hm]; omega)

/-- Every event that meets the condition keeps the invariant. -/
theorem Covered.step (h : Covered s) {e : Event μ} (hc : s.passesOn e = true)
    (hst : EventSignal.step s e = some s') : Covered s' := by
  cases e with
  | send message =>
    cases hst
    exact h.mono rfl (by simp [Op.waits]) (by simp [Op.holdsNotification])
  | sendAdmitted message deadline =>
    cases hst
    exact h.mono rfl (by simp [Op.waits]) (by simp [Op.holdsNotification])
  | tryAdmit op expired late =>
    cases op with
    | attempt message deadline =>
      have hst : EventSignal.sendAdmitted s (.attempt message deadline) message deadline expired late = some s' := hst
      refine h.sendAdmitted ?_ ?_ (Or.inl ?_) hst
      · rfl
      · exact Nat.zero_le 1
      · rfl
    | notified message deadline =>
      have hst : EventSignal.sendAdmitted s (.notified message deadline) message deadline expired late = some s' := hst
      refine h.sendAdmitted ?_ ?_ (Or.inr ?_) hst
      · rfl
      · exact Nat.le_refl 1
      · rintro rfl rfl
        exact hc
    | _ => cases hst
  | push message =>
    change (if s.closed then _ else _) = some s' at hst
    split at hst <;> obtain ⟨ops, ha, rfl⟩ := Option.map_eq_some_iff.1 hst <;>
      exact h.advance ha ⟨rfl, rfl⟩ rfl rfl rfl rfl
  | giveBack message waiter =>
    obtain ⟨ops, ha, hst⟩ := Option.bind_eq_some_iff.1 hst
    have hmid : Covered { s with ops := ops, returned := message :: s.returned } :=
      h.advance ha ⟨rfl, rfl⟩ rfl rfl rfl rfl
    exact hmid.messageReceived hst
  | swap =>
    obtain ⟨ops, ha, rfl⟩ := Option.map_eq_some_iff.1 hst
    refine h.advance ha ⟨rfl, ?_⟩ rfl rfl rfl rfl
    split <;> rfl
  | wake =>
    obtain ⟨ops, ha, rfl⟩ := Option.map_eq_some_iff.1 hst
    exact h.advance ha ⟨rfl, rfl⟩ rfl rfl rfl rfl
  | waitForCapacity =>
    cases hst
    exact h.mono rfl (by simp [Op.waits]) (by simp [Op.holdsNotification])
  | recheck op late =>
    cases op with
    | hintChecking =>
      have hst : EventSignal.waitForCapacity s .hintChecking late = some s' := hst
      exact h.waitForCapacity rfl (Or.inl rfl) hst
    | hintNotified =>
      have hst : EventSignal.waitForCapacity s .hintNotified late = some s' := hst
      exact h.waitForCapacity rfl (Or.inr hc) hst
    | _ => cases hst
  | rouse op =>
    obtain ⟨op', hr, hst⟩ := Option.bind_eq_some_iff.1 hst
    obtain ⟨ops, ha, rfl⟩ := Option.map_eq_some_iff.1 hst
    obtain ⟨hw, hw', hh, hh'⟩ := waits_of_rouse hr
    have hwaits := total_advance ha Op.waits
    have hholds := total_advance ha Op.holdsNotification
    rw [total_singleton] at hwaits hholds
    exact h.mono rfl (by dsimp only; omega) (by dsimp only; omega)
  | receive =>
    obtain ⟨-, hst⟩ := Option.ite_none_left_eq_some.1 hst
    cases hq : s.queue with
    | nil =>
      rw [hq] at hst
      cases hst
    | cons message queue =>
      rw [hq] at hst
      cases hst
      exact ⟨h.gone, h.covered⟩
  | messageReceived message waiter =>
    obtain ⟨-, hst⟩ := Option.ite_none_right_eq_some.1 hst
    refine Covered.messageReceived ?_ hst
    exact ⟨h.gone, h.covered⟩
  | beginTurn | finishStore | finishLoad | close =>
    obtain ⟨-, hst⟩ := Option.ite_none_right_eq_some.1 hst
    cases hst
    exact ⟨h.gone, h.covered⟩
  | disconnect =>
    obtain ⟨-, hst⟩ := Option.ite_none_left_eq_some.1 hst
    cases hst
    exact Covered.of_none (total_waits_notifyAll s.ops)

/-! ## Main results -/

/-- While the notifications are passed on, a worker that waits for free capacity has a notification on its way. -/
theorem backpressure_guarantees (h : (system μ).ReachableWhere (fun s e => s.passesOn e = true) s) : ¬ Stuck s := by
  have hc : Covered s := h.invariant Covered.new fun _ _ _ hi hp hst => hi.step hp hst
  rintro ⟨⟨op, hop, hw⟩, hfree, hnone, -⟩
  have hpos : 0 < total Op.waits s.ops := total_pos.2 ⟨op, hop, waiting_iff.1 hw⟩
  have hzero : total Op.holdsNotification s.ops = 0 := total_eq_zero.2 hnone
  have := hc.covered hpos
  omega

/-- Messages sent by the UI are queued in order. -/
theorem run_sends {s : State μ} (hclosed : s.closed = false) (hnote : s.notification = true) (ns : List μ) :
    (system μ).runWhere State.passesOn s (ns.flatMap fun n => [.send n, .push n, .swap]) = some { s with
      messages := s.messages + ns.length, queue := s.queue ++ ns, submitted := ns.reverse ++ s.submitted } := by
  induction ns generalizing s with
  | nil => simp [System.runWhere]
  | cons n ns ih =>
    let t : State μ := { s with
      messages := s.messages + 1, queue := s.queue ++ [n], submitted := n :: s.submitted }
    have hfirst : (system μ).runWhere State.passesOn s [.send n, .push n, .swap] = some t := by
      simp [t, System.runWhere, State.passesOn, system, EventSignal.step, Lib.advance, hclosed, hnote]
    have hrest := ih (s := t) hclosed hnote
    rw [List.flatMap_cons, System.runWhere_append hfirst hrest]
    simp [t, Nat.add_assoc, Nat.add_comm 1]

theorem range_pending : List.range maxPendingWorkerMessages = 0 :: List.range' 1 255 := by
  rw [maxPendingWorkerMessages, List.range_eq_range', List.range'_succ]

/-- The queue is full of messages of the UI. -/
def fullQueue : State Nat :=
  { State.new with
    notification := true, messages := maxPendingWorkerMessages, queue := 0 :: List.range' 1 255, ops := [.waking],
    submitted := (List.range maxPendingWorkerMessages).reverse }

theorem run_fullQueue : (system Nat).runWhere State.passesOn (system Nat).init
    ((List.range maxPendingWorkerMessages).flatMap fun n => [.send n, .push n, .swap]) = some fullQueue := by
  let first : State Nat :=
    { State.new with notification := true, messages := 1, queue := [0], ops := [.waking], submitted := [0] }
  have hone : (system Nat).runWhere State.passesOn (system Nat).init [.send 0, .push 0, .swap] = some first := rfl
  have hrest := run_sends (s := first) rfl rfl (List.range' 1 255)
  rw [fullQueue, range_pending, List.flatMap_cons, System.runWhere_append hone hrest]
  simp [first, maxPendingWorkerMessages]

/-- A full queue, one worker and a capacity hint waiting: the first receipt notifies the worker, who takes the credit.
-/
def workerFirst : List (Event Nat) :=
  (List.range maxPendingWorkerMessages).flatMap (fun n => [.send n, .push n, .swap]) ++
  [.waitForCapacity, .recheck .hintChecking false, .sendAdmitted 256 .never,
    .tryAdmit (.attempt 256 .never) false false,
    .receive, .messageReceived 0 (some (.blocked 256 .never)), .tryAdmit (.notified 256 .never) false false]

/-- The hint still waits, and the worker has taken the place of the message that was received. -/
theorem run_workerFirst : ∃ s, (system Nat).runWhere State.passesOn (system Nat).init workerFirst = some s ∧
    s.ops = [.reserved 256, .hintBlocked, .waking] ∧ s.messages = maxPendingWorkerMessages := by
  let t : State Nat := { fullQueue with
    queue := List.range' 1 255, ops := [.reserved 256, .hintBlocked, .waking], received := [0],
    submitted := 256 :: fullQueue.submitted, admissions := [255] }
  refine ⟨t, System.runWhere_append run_fullQueue ?_, rfl, rfl⟩
  simp [t, System.runWhere, State.passesOn, system, EventSignal.step, EventSignal.sendAdmitted,
    EventSignal.waitForCapacity, EventSignal.messageReceived, notifyOne, Op.notify, Lib.advance, fullQueue, State.new,
    maxPendingWorkerMessages]

theorem backpressure_guarantees_hint :
    ∃ s, ¬ Stuck (μ := Nat) s ∧ (∃ op ∈ s.ops, op.waiting = true) ∧ s.messages = maxPendingWorkerMessages := by
  obtain ⟨s, hrun, hops, hm⟩ := run_workerFirst
  refine ⟨s, backpressure_guarantees (System.ReachableWhere.init.runWhere hrun), ⟨.hintBlocked, ?_, rfl⟩, hm⟩
  rw [hops]
  simp

/-- Capacity hints wait while the queue is full. -/
theorem run_hints {s : State μ} (hd : s.disconnected = false) (hfull : maxPendingWorkerMessages ≤ s.messages)
    (ns : List Nat) :
    (system μ).run s (ns.flatMap fun _ => [.waitForCapacity, .recheck .hintChecking false]) =
      some { s with ops := List.replicate ns.length .hintBlocked ++ s.ops } := by
  induction ns generalizing s with
  | nil => simp [System.run, System.runWhere]
  | cons n ns ih =>
    let t : State μ := { s with ops := .hintBlocked :: s.ops }
    have hfirst : (system μ).run s [.waitForCapacity, .recheck .hintChecking false] = some t := by
      simp [t, System.run, System.runWhere, system, EventSignal.step, EventSignal.waitForCapacity, Lib.advance, hd,
        hfull]
    have hrest := ih (s := t) hd hfull
    rw [List.flatMap_cons, System.run, System.runWhere_append hfirst hrest]
    simp [t, List.replicate_succ']

/-- Every receipt notifies a hint, which leaves. -/
theorem run_receipts {s : State μ} {message : μ} {deadline : Deadline} (hd : s.disconnected = false) (ns : List μ)
    (hq : s.queue = ns) (ho : s.ops = .blocked message deadline :: List.replicate ns.length .hintBlocked)
    (hm : s.messages = ns.length) (hmax : ns.length ≤ maxPendingWorkerMessages) (hh : s.holding = []) :
    ∃ s', (system μ).run s (ns.flatMap fun n =>
        [.receive, .messageReceived n (some .hintBlocked), .recheck .hintNotified false]) = some s' ∧
      s'.ops = [.blocked message deadline] ∧ s'.messages = 0 ∧ s'.queue = [] ∧ s'.holding = [] := by
  induction ns generalizing s with
  | nil => exact ⟨s, rfl, ho, hm, hq, hh⟩
  | cons n ns ih =>
    rw [List.length_cons] at ho hm hmax
    let t : State μ := { s with
      queue := ns, ops := .blocked message deadline :: List.replicate ns.length .hintBlocked, messages := ns.length,
      received := n :: s.received }
    have hfirst : (system μ).run s
        [.receive, .messageReceived n (some .hintBlocked), .recheck .hintNotified false] = some t := by
      have hroom : ¬ maxPendingWorkerMessages ≤ ns.length := by omega
      simp [t, System.run, System.runWhere, system, EventSignal.step, EventSignal.messageReceived, notifyOne, Op.notify,
        EventSignal.waitForCapacity, Lib.advance, hd, hq, ho, hm, hh, hroom, List.replicate_succ]
    obtain ⟨s', hrest, hs'⟩ := ih (s := t) hd rfl rfl rfl (by omega) hh
    exact ⟨s', by rw [List.flatMap_cons, System.run, System.runWhere_append hfirst hrest], hs'⟩

theorem reachable_hintsFirst : ∃ s, (system Nat).Reachable s ∧
    s.ops = [.blocked 256 .never] ∧ s.messages = 0 ∧ s.queue = [] ∧ s.holding = [] := by
  have hfull := System.runWhere_mono (fun _ _ _ => rfl) run_fullQueue
  have hhints := System.runWhere_append hfull
    (run_hints (s := fullQueue) rfl (Nat.le_refl _) (List.range maxPendingWorkerMessages))
  rw [List.length_range] at hhints
  let t : State Nat := { fullQueue with
    wakes := 1, ops := .blocked 256 .never :: List.replicate maxPendingWorkerMessages .hintBlocked,
    submitted := 256 :: fullQueue.submitted }
  have hworker : (system Nat).run
      { fullQueue with ops := List.replicate maxPendingWorkerMessages .hintBlocked ++ fullQueue.ops }
      [.wake, .sendAdmitted 256 .never, .tryAdmit (.attempt 256 .never) false false] = some t := by
    have hwaking : (.waking : Op Nat) ∉ List.replicate maxPendingWorkerMessages .hintBlocked := by
      simp [List.mem_replicate]
    simp [t, System.run, System.runWhere, system, EventSignal.step, EventSignal.sendAdmitted, Lib.advance, fullQueue,
      State.new, List.erase_append_right _ hwaking]
  have hlength := List.length_range (n := maxPendingWorkerMessages)
  obtain ⟨s, hreceipts, hs⟩ := run_receipts (s := t) rfl (List.range maxPendingWorkerMessages)
    (by simp only [t, fullQueue, range_pending]) (by rw [hlength]) hlength.symm hlength.le rfl
  have hrun := System.runWhere_append (System.runWhere_append hhints hworker) hreceipts
  exact ⟨s, (System.ReachableWhere.init.runWhere hrun).reachable, hs⟩

/-- Capacity hints use up every notification: a worker's send without a deadline waits, the queue is empty, every
message is acknowledged, and no other call is in progress. -/
theorem backpressure_stuck :
    ∃ s, (system Nat).Reachable s ∧ Stuck s ∧ s.ops = [.blocked 256 .never] ∧ s.messages = 0 ∧ s.holding = [] := by
  obtain ⟨s, hs, hops, hm, hq, hh⟩ := reachable_hintsFirst
  refine ⟨s, hs, ⟨⟨.blocked 256 .never, by simp [hops], rfl⟩, ?_, ?_, hq⟩, hops, hm, hh⟩
  · rw [hm]
    exact Nat.zero_lt_succ 255
  · rw [hops]
    rintro op hop
    rw [List.mem_singleton.1 hop]
    rfl

end CocoaWay.EventSignal
