import CocoaWay.EventSignal.Basic

/-!
# No message of the event loop is lost and no wake-up is missed

* `Op.carried`, `Op.credit`, `Op.inPush`, `Op.inWake` : what a call in progress holds;
* `messageReceived_cases`, `sendAdmitted_cases`, `waitForCapacity_cases` : what each function can do;
* `Inv`, `Inv.step` : the counter, the messages and the wake-ups, kept by every event;
* `eventSignal_guarantees` : the accounts and the wake-ups in every reachable state;
* `eventSignal_unaccounted` : the counter also counts messages received and not acknowledged, and a message may be
  queued with no flag set while its sender stands before the swap.
-/

namespace CocoaWay.EventSignal
open Lib

variable {μ : Type*} [DecidableEq μ] {s s' : State μ} {op op' : Op μ} {ops : List (Op μ)}

/-! ## What a call holds -/

/-- The messages a call carries. -/
def Op.messages : Op μ → List μ
  | .attempt message _ | .blocked message _ | .notified message _ | .reserved message | .refused message => [message]
  | _ => []

/-- How often a call carries the message. -/
def Op.carried (message : μ) (op : Op μ) : Nat := op.messages.count message

theorem Op.carried_eq {l : List μ} (h : op.messages = l) (message : μ) : op.carried message = l.count message := by
  rw [Op.carried, h]

/-- The credits a call has reserved. -/
def Op.credit : Op μ → Nat
  | .reserved _ | .refused _ => 1
  | _ => 0

/-- The call has queued its message and not swapped the flag. -/
def Op.inPush : Op μ → Nat
  | .sent => 1
  | _ => 0

/-- The call has set the flag and not called the waker. -/
def Op.inWake : Op μ → Nat
  | .waking => 1
  | _ => 0

omit [DecidableEq μ] in
theorem sent_mem_iff : 0 < total Op.inPush ops ↔ .sent ∈ ops := by
  rw [total_pos]
  constructor
  · rintro ⟨op, hop, hpos⟩
    cases op <;> simp [Op.inPush] at hpos
    exact hop
  · intro h
    exact ⟨.sent, h, Nat.one_pos⟩

omit [DecidableEq μ] in
theorem waking_mem_iff : 0 < total Op.inWake ops ↔ .waking ∈ ops := by
  rw [total_pos]
  constructor
  · rintro ⟨op, hop, hpos⟩
    cases op <;> simp [Op.inWake] at hpos
    exact hop
  · intro h
    exact ⟨.waking, h, Nat.one_pos⟩

/-- Two calls hold the same: only where they wait differs. -/
structure SameHolding (op op' : Op μ) : Prop where
  messages : op'.messages = op.messages
  credit : op'.credit = op.credit
  inPush : op'.inPush = op.inPush
  inWake : op'.inWake = op.inWake

omit [DecidableEq μ] in
theorem sameHolding_notify (h : op.notify = some op') : SameHolding op op' := by
  cases op <;> simp only [Op.notify, reduceCtorEq, Option.some.injEq] at h <;> subst h <;>
    exact ⟨rfl, rfl, rfl, rfl⟩

omit [DecidableEq μ] in
theorem sameHolding_rouse (h : op.rouse = some op') : SameHolding op op' := by
  cases op <;> simp only [Op.rouse, reduceCtorEq, Option.some.injEq] at h <;> subst h <;>
    exact ⟨rfl, rfl, rfl, rfl⟩

/-- Two pools hold the same in total. -/
structure SameTotals (ops ops' : List (Op μ)) : Prop where
  carried : ∀ message, total (Op.carried message) ops' = total (Op.carried message) ops
  credit : total Op.credit ops' = total Op.credit ops
  inPush : total Op.inPush ops' = total Op.inPush ops
  inWake : total Op.inWake ops' = total Op.inWake ops

theorem SameTotals.refl (ops : List (Op μ)) : SameTotals ops ops :=
  ⟨fun _ => rfl, rfl, rfl, rfl⟩

theorem sameTotals_advance {pool : List (Op μ)} (h : advance op [op'] pool = some ops) (hh : SameHolding op op') :
    SameTotals pool ops := by
  have ht : ∀ f : Op μ → Nat, f op' = f op → total f ops = total f pool := by
    intro f hf
    have := total_advance h f
    simp only [total_cons, total_nil, hf] at this
    omega
  exact ⟨fun m => ht _ (by simp only [Op.carried, hh.messages]), ht _ hh.credit, ht _ hh.inPush, ht _ hh.inWake⟩

variable {waiter : Option (Op μ)} {message : μ}

theorem sameTotals_notifyOne {pool : List (Op μ)} (h : notifyOne pool waiter = some ops) : SameTotals pool ops := by
  cases waiter with
  | none =>
    simp only [notifyOne] at h
    split at h
    · cases h
    · cases h
      exact SameTotals.refl _
  | some op =>
    obtain ⟨op', hn, h⟩ := Option.bind_eq_some_iff.1 h
    exact sameTotals_advance h (sameHolding_notify hn)

theorem sameTotals_notifyAll (ops : List (Op μ)) : SameTotals ops (notifyAll ops) := by
  have hsame : ∀ op : Op μ, SameHolding op (op.notify.getD op) := by
    intro op
    cases hn : op.notify with
    | none => exact ⟨rfl, rfl, rfl, rfl⟩
    | some op' => exact sameHolding_notify hn
  have ht : ∀ f : Op μ → Nat, (∀ op, f (op.notify.getD op) = f op) → total f (notifyAll ops) = total f ops := by
    intro f hf
    unfold total notifyAll
    rw [List.map_map]
    congr 1
    exact List.map_congr_left fun op _ => hf op
  exact ⟨fun m => ht _ fun op => by simp only [Op.carried, (hsame op).messages], ht _ fun op => (hsame op).credit,
    ht _ fun op => (hsame op).inPush, ht _ fun op => (hsame op).inWake⟩

/-! ## What each function can do -/

theorem messageReceived_cases (h : messageReceived s waiter = some s') :
    (s.messages = 0 ∧ s' = { s with panicked := true }) ∨
    (0 < s.messages ∧ ∃ ops, notifyOne s.ops waiter = some ops ∧
      s' = { s with messages := s.messages - 1, ops := ops }) := by
  unfold messageReceived at h
  split at h
  next h0 =>
    cases h
    exact Or.inl ⟨h0, rfl⟩
  next h0 =>
    obtain ⟨ops, hn, rfl⟩ := Option.map_eq_some_iff.1 h
    exact Or.inr ⟨Nat.pos_of_ne_zero h0, ops, hn, rfl⟩

theorem sendAdmitted_cases {deadline : Deadline} {expired late : Bool}
    (h : sendAdmitted s op message deadline expired late = some s') :
    (∃ ops, (s.disconnected = true ∨ (deadline = .after ∧ expired = true) ∨ maxPendingWorkerMessages ≤ s.messages) ∧
      advance op [] s.ops = some ops ∧ s' = { s with ops := ops, returned := message :: s.returned }) ∨
    (∃ ops, s.disconnected = false ∧ s.messages < maxPendingWorkerMessages ∧
      advance op [.reserved message] s.ops = some ops ∧
      s' = { s with ops := ops, messages := s.messages + 1, admissions := s.messages :: s.admissions }) ∨
    (∃ ops, s.disconnected = false ∧ maxPendingWorkerMessages ≤ s.messages ∧
      advance op [.blocked message deadline] s.ops = some ops ∧ s' = { s with ops := ops }) := by
  unfold sendAdmitted at h
  dsimp only at h
  split at h
  next hd =>
    obtain ⟨ops, ha, rfl⟩ := Option.map_eq_some_iff.1 h
    exact Or.inl ⟨ops, Or.inl hd, ha, rfl⟩
  next hd =>
    rw [Bool.not_eq_true] at hd
    split at h
    next he =>
      obtain ⟨ops, ha, rfl⟩ := Option.map_eq_some_iff.1 h
      exact Or.inl ⟨ops, Or.inr (Or.inl he), ha, rfl⟩
    next =>
      split at h
      next hlt =>
        obtain ⟨t, ht, rfl⟩ := Option.map_eq_some_iff.1 h
        obtain ⟨ops, ha, rfl⟩ := Option.map_eq_some_iff.1 ht
        exact Or.inr (Or.inl ⟨ops, hd, hlt, ha, rfl⟩)
      next hfull =>
        have hfull := Nat.not_lt.1 hfull
        have hblock : ((advance op [.blocked message deadline] s.ops).map fun ops => { s with ops := ops }) = some s' →
            ∃ ops, s.disconnected = false ∧ maxPendingWorkerMessages ≤ s.messages ∧
              advance op [.blocked message deadline] s.ops = some ops ∧ s' = { s with ops := ops } := by
          intro h
          obtain ⟨ops, ha, rfl⟩ := Option.map_eq_some_iff.1 h
          exact ⟨ops, hd, hfull, ha, rfl⟩
        cases deadline with
        | never => exact Or.inr (Or.inr (hblock h))
        | zero | after =>
          dsimp only at h
          split at h
          · obtain ⟨ops, ha, rfl⟩ := Option.map_eq_some_iff.1 h
            exact Or.inl ⟨ops, Or.inr (Or.inr hfull), ha, rfl⟩
          · exact Or.inr (Or.inr (hblock h))

theorem waitForCapacity_cases {late : Bool} (h : waitForCapacity s op late = some s') :
    (∃ ops, s.disconnected = false ∧ maxPendingWorkerMessages ≤ s.messages ∧
      advance op [.hintBlocked] s.ops = some ops ∧
      s' = { s with ops := ops }) ∨
    (∃ ops, advance op [] s.ops = some ops ∧ s' = { s with ops := ops }) := by
  unfold waitForCapacity at h
  dsimp only at h
  split at h
  next hf =>
    obtain ⟨ops, ha, rfl⟩ := Option.map_eq_some_iff.1 h
    simp only [Bool.and_eq_true, Bool.not_eq_true', decide_eq_true_eq] at hf
    exact Or.inl ⟨ops, hf.1.1, hf.1.2, ha, rfl⟩
  next =>
    obtain ⟨ops, ha, rfl⟩ := Option.map_eq_some_iff.1 h
    exact Or.inr ⟨ops, ha, rfl⟩

/-! ## The invariant -/

/-- How often the message is held by the calls, queued, received, returned or discarded. -/
def State.count (s : State μ) (message : μ) : Nat :=
  total (Op.carried message) s.ops + s.queue.count message + s.holding.count message + s.received.count message +
    s.returned.count message + s.discarded.count message

structure Inv (s : State μ) : Prop where
  counter : s.messages = s.queue.length + total Op.credit s.ops + s.holding.length + s.discarded.length
  exact : ∀ message, s.count message = s.submitted.count message
  admitted : ∀ n ∈ s.admissions, n < maxPendingWorkerMessages
  calm : s.panicked = false
  awake : s.queue ≠ [] → s.notification = true ∨ s.asked = true ∨ 0 < total Op.inPush s.ops ∨ s.phase = .stored
  noticed : s.notification = true → 0 < s.wakes ∨ 0 < total Op.inWake s.ops ∨ s.phase = .turn
  discards : s.closed = false → s.discarded = []

theorem Inv.new : Inv (State.new : State μ) :=
  ⟨rfl, fun _ => rfl, fun _ h => absurd h List.not_mem_nil, rfl, fun h => absurd rfl h,
    fun h => absurd h Bool.false_ne_true, fun _ => rfl⟩

theorem Inv.awake_mono (h : Inv s) (hle : total Op.inPush s.ops ≤ total Op.inPush ops) (hq : s.queue ≠ []) :
    s.notification = true ∨ s.asked = true ∨ 0 < total Op.inPush ops ∨ s.phase = .stored :=
  (h.awake hq).imp_right (Or.imp_right (Or.imp_left fun hp => Nat.lt_of_lt_of_le hp hle))

theorem Inv.noticed_mono (h : Inv s) (hle : total Op.inWake s.ops ≤ total Op.inWake ops)
    (hn : s.notification = true) : 0 < s.wakes ∨ 0 < total Op.inWake ops ∨ s.phase = .turn :=
  (h.noticed hn).imp_right (Or.imp_left fun hp => Nat.lt_of_lt_of_le hp hle)

theorem Inv.setOps (h : Inv s) (hs : SameTotals s.ops ops) : Inv { s with ops := ops } := by
  refine ⟨?_, fun m => ?_, h.admitted, h.calm, h.awake_mono hs.inPush.ge, h.noticed_mono hs.inWake.ge, h.discards⟩
  · dsimp only
    rw [hs.credit]
    exact h.counter
  · have := h.exact m
    unfold State.count at this ⊢
    dsimp only
    rw [hs.carried]
    exact this

omit [DecidableEq μ] in
theorem total_singleton (f : Op μ → Nat) (op : Op μ) : total f [op] = f op := by
  rw [total_cons, total_nil, Nat.add_zero]

theorem Inv.giveUp (h : Inv s) (hm : op.messages = [message]) (hc : op.credit = 0) (hp : op.inPush = 0)
    (hw : op.inWake = 0) (ha : advance op [] s.ops = some ops) :
    Inv { s with ops := ops, returned := message :: s.returned } := by
  have ht := total_advance ha
  have hcredit := ht Op.credit
  have hpush := ht Op.inPush
  have hwake := ht Op.inWake
  rw [hc, total_nil] at hcredit
  rw [hp, total_nil, Nat.add_zero, Nat.zero_add] at hpush
  rw [hw, total_nil, Nat.add_zero, Nat.zero_add] at hwake
  refine ⟨?_, fun m => ?_, h.admitted, h.calm, h.awake_mono hpush.ge, h.noticed_mono hwake.ge, h.discards⟩
  · have := h.counter
    dsimp only
    omega
  · have hcar := ht (Op.carried m)
    have := h.exact m
    unfold State.count at this ⊢
    dsimp only
    rw [Op.carried_eq hm, total_nil] at hcar
    rw [List.count_cons]
    simp only [List.count_cons, List.count_nil] at hcar
    omega

theorem Inv.reserve (h : Inv s) (hm : op.messages = [message]) (hc : op.credit = 0) (hp : op.inPush = 0)
    (hw : op.inWake = 0) (hlt : s.messages < maxPendingWorkerMessages)
    (ha : advance op [.reserved message] s.ops = some ops) :
    Inv { s with ops := ops, messages := s.messages + 1, admissions := s.messages :: s.admissions } := by
  have ht := total_advance ha
  have hcredit := ht Op.credit
  have hpush := ht Op.inPush
  have hwake := ht Op.inWake
  rw [hc, total_singleton] at hcredit
  rw [hp, total_singleton, Nat.add_zero] at hpush
  rw [hw, total_singleton, Nat.add_zero] at hwake
  simp only [Op.credit, Op.inPush, Op.inWake, Nat.zero_add] at hcredit hpush hwake
  refine ⟨?_, fun m => ?_, fun n hn => ?_, h.calm, h.awake_mono hpush.ge, h.noticed_mono hwake.ge, h.discards⟩
  · have := h.counter
    dsimp only
    omega
  · have hcar := ht (Op.carried m)
    have := h.exact m
    have hres : Op.carried m (.reserved message) = [message].count m := rfl
    rw [total_singleton, Op.carried_eq hm, hres] at hcar
    unfold State.count at this ⊢
    dsimp only
    omega
  · rcases List.mem_cons.1 hn with rfl | hn
    · exact hlt
    · exact h.admitted n hn

/-- A call that blocks again or for the first time keeps what it holds. -/
theorem Inv.sendAdmitted (h : Inv s) {deadline : Deadline} {expired late : Bool}
    (hop : SameHolding (.blocked message deadline) op)
    (hst : sendAdmitted s op message deadline expired late = some s') : Inv s' := by
  rcases sendAdmitted_cases hst with ⟨ops, -, ha, rfl⟩ | ⟨ops, -, hlt, ha, rfl⟩ | ⟨ops, -, -, ha, rfl⟩
  · exact h.giveUp hop.messages hop.credit hop.inPush hop.inWake ha
  · exact h.reserve hop.messages hop.credit hop.inPush hop.inWake hlt ha
  · exact h.setOps (sameTotals_advance ha
      ⟨hop.messages.symm, hop.credit.symm, hop.inPush.symm, hop.inWake.symm⟩)

theorem Inv.waitForCapacity (h : Inv s) {late : Bool} (hop : SameHolding .hintBlocked op)
    (hst : waitForCapacity s op late = some s') : Inv s' := by
  rcases waitForCapacity_cases hst with ⟨ops, -, -, ha, rfl⟩ | ⟨ops, ha, rfl⟩
  · exact h.setOps (sameTotals_advance ha
      ⟨hop.messages.symm, hop.credit.symm, hop.inPush.symm, hop.inWake.symm⟩)
  · have ht : ∀ f : Op μ → Nat, f op = 0 → total f ops = total f s.ops := by
      intro f hf
      have := total_advance ha f
      rw [hf, total_nil] at this
      omega
    exact h.setOps ⟨fun m => ht _ (Op.carried_eq hop.messages m),
      ht _ hop.credit, ht _ hop.inPush, ht _ hop.inWake⟩

/-- `message_received` after a message has left the books. -/
theorem Inv.messageReceived (hpos : 0 < s.messages)
    (h : Inv { s with messages := s.messages - 1 }) (hst : messageReceived s waiter = some s') : Inv s' := by
  rcases messageReceived_cases hst with ⟨h0, -⟩ | ⟨-, ops, hn, rfl⟩
  · omega
  · have hsame : SameTotals s.ops ops := sameTotals_notifyOne hn
    exact h.setOps hsame

theorem Inv.giveBack (h : Inv s) (hst : step s (.giveBack message waiter) = some s') : Inv s' := by
  obtain ⟨ops, ha, hst⟩ := Option.bind_eq_some_iff.1 hst
  have ht := total_advance ha
  have hcredit : total Op.credit ops + 1 = total Op.credit s.ops := by simpa [Op.credit] using ht Op.credit
  have hpush : total Op.inPush ops = total Op.inPush s.ops := by simpa [Op.inPush] using ht Op.inPush
  have hwake : total Op.inWake ops = total Op.inWake s.ops := by simpa [Op.inWake] using ht Op.inWake
  have hcounter := h.counter
  have hpos : 0 < s.messages := by omega
  have hmid : Inv { s with ops := ops, returned := message :: s.returned, messages := s.messages - 1 } := by
    refine ⟨?_, fun m => ?_, h.admitted, h.calm, h.awake_mono hpush.ge, h.noticed_mono hwake.ge, h.discards⟩
    · dsimp only
      omega
    · have hcar := ht (Op.carried m)
      have hres : Op.carried m (.refused message) = [message].count m := rfl
      have := h.exact m
      rw [hres, total_nil] at hcar
      unfold State.count at this ⊢
      dsimp only
      rw [List.count_cons]
      simp only [List.count_cons, List.count_nil] at hcar
      omega
  exact Inv.messageReceived (s := { s with ops := ops, returned := message :: s.returned }) hpos hmid hst

theorem Inv.acknowledge (h : Inv s) (hst : step s (.messageReceived message waiter) = some s') : Inv s' := by
  obtain ⟨hm, hst⟩ := Option.ite_none_right_eq_some.1 hst
  have hlen := List.length_erase_add_one hm
  have hcounter := h.counter
  have hpos : 0 < s.messages := by omega
  have hmid : Inv { s with
      holding := s.holding.erase message, received := message :: s.received, messages := s.messages - 1 } := by
    refine ⟨?_, fun m => ?_, h.admitted, h.calm, h.awake, h.noticed, h.discards⟩
    · dsimp only
      omega
    · have := h.exact m
      have hcount := (List.perm_cons_erase hm).count_eq m
      unfold State.count at this ⊢
      dsimp only
      rw [List.count_cons] at hcount ⊢
      omega
  exact Inv.messageReceived (s := { s with holding := s.holding.erase message, received := message :: s.received })
    hpos hmid hst

theorem Inv.push (h : Inv s) (hst : step s (.push message) = some s') : Inv s' := by
  change (if s.closed then _ else _) = some s' at hst
  split at hst
  next =>
    obtain ⟨ops, ha, rfl⟩ := Option.map_eq_some_iff.1 hst
    exact h.setOps (sameTotals_advance ha ⟨rfl, rfl, rfl, rfl⟩)
  next =>
    obtain ⟨ops, ha, rfl⟩ := Option.map_eq_some_iff.1 hst
    have ht := total_advance ha
    have hcredit : total Op.credit ops + 1 = total Op.credit s.ops := by simpa [Op.credit] using ht Op.credit
    have hpush : total Op.inPush ops = 1 + total Op.inPush s.ops := by simpa [Op.inPush] using ht Op.inPush
    have hwake : total Op.inWake ops = total Op.inWake s.ops := by simpa [Op.inWake] using ht Op.inWake
    refine ⟨?_, fun m => ?_, h.admitted, h.calm, fun _ => ?_, h.noticed_mono hwake.ge, h.discards⟩
    · have := h.counter
      simp only [List.length_append, List.length_singleton]
      omega
    · have hcar := ht (Op.carried m)
      have hres : Op.carried m (.reserved message) = [message].count m := rfl
      have hsent : Op.carried m (.sent : Op μ) = 0 := rfl
      have := h.exact m
      rw [hres, total_singleton, hsent] at hcar
      unfold State.count at this ⊢
      dsimp only
      rw [List.count_append]
      omega
    · dsimp only
      exact Or.inr (Or.inr (Or.inl (by omega)))

/-- The swap of the flag: the flag is set, and who set it calls the waker. -/
theorem Inv.swap (h : Inv s) (hst : step s .swap = some s') : Inv s' := by
  obtain ⟨ops, ha, rfl⟩ := Option.map_eq_some_iff.1 hst
  have ht := total_advance ha
  have hnone : ∀ f : Op μ → Nat, f .sent = 0 → f .waking = 0 → total f ops = total f s.ops := by
    intro f hsent hwaking
    have := ht f
    split at this <;> simp only [hsent, hwaking, total_cons, total_nil] at this <;> omega
  refine ⟨?_, fun m => ?_, h.admitted, h.calm, fun _ => Or.inl rfl, fun _ => ?_, h.discards⟩
  · dsimp only
    rw [hnone Op.credit rfl rfl]
    exact h.counter
  · have := h.exact m
    unfold State.count at this ⊢
    dsimp only
    rw [hnone (Op.carried m) rfl rfl]
    exact this
  · have hwake := ht Op.inWake
    by_cases hn : s.notification = true
    · rw [if_pos hn] at hwake
      have hle : total Op.inWake s.ops ≤ total Op.inWake ops := by
        simp only [Op.inWake, total_nil] at hwake
        omega
      exact h.noticed_mono hle hn
    · rw [if_neg hn] at hwake
      simp only [Op.inWake, total_cons, total_nil] at hwake
      exact Or.inr (Or.inl (by dsimp only; omega))

theorem Inv.wake (h : Inv s) (hst : step s .wake = some s') : Inv s' := by
  obtain ⟨ops, ha, rfl⟩ := Option.map_eq_some_iff.1 hst
  have hnone : ∀ f : Op μ → Nat, f .waking = 0 → total f ops = total f s.ops := by
    intro f hf
    have := total_advance ha f
    rw [hf, total_nil] at this
    omega
  have hpush := hnone Op.inPush rfl
  refine ⟨?_, fun m => ?_, h.admitted, h.calm, h.awake_mono hpush.ge, fun _ => Or.inl (Nat.succ_pos _), h.discards⟩
  · dsimp only
    rw [hnone Op.credit rfl]
    exact h.counter
  · have := h.exact m
    unfold State.count at this ⊢
    dsimp only
    rw [hnone (Op.carried m) rfl]
    exact this

theorem Inv.enter (h : Inv s) {n : Nat} (hm : op.messages = [message]) (hc : op.credit = n)
    (hp : op.inPush = 0) (hw : op.inWake = 0) :
    Inv { s with ops := op :: s.ops, messages := s.messages + n, submitted := message :: s.submitted } := by
  have hpush : total Op.inPush (op :: s.ops) = total Op.inPush s.ops := by rw [total_cons, hp, Nat.zero_add]
  have hwake : total Op.inWake (op :: s.ops) = total Op.inWake s.ops := by rw [total_cons, hw, Nat.zero_add]
  refine ⟨?_, fun m => ?_, h.admitted, h.calm, h.awake_mono hpush.ge, h.noticed_mono hwake.ge, h.discards⟩
  · have := h.counter
    dsimp only
    rw [total_cons, hc]
    omega
  · have := h.exact m
    unfold State.count at this ⊢
    dsimp only
    rw [total_cons, Op.carried_eq hm, List.count_cons]
    simp only [List.count_cons, List.count_nil]
    omega

theorem Inv.receive (h : Inv s) (hst : step s .receive = some s') : Inv s' := by
  obtain ⟨-, hst⟩ := Option.ite_none_left_eq_some.1 hst
  cases hq : s.queue with
  | nil =>
    rw [hq] at hst
    cases hst
  | cons message queue =>
    rw [hq] at hst
    cases hst
    refine ⟨?_, fun m => ?_, h.admitted, h.calm, fun _ => h.awake (by simp [hq]), h.noticed, h.discards⟩
    · have := h.counter
      rw [hq] at this
      simp only [List.length_cons] at this ⊢
      omega
    · have := h.exact m
      unfold State.count at this ⊢
      rw [hq] at this
      dsimp only
      rw [List.count_cons] at this ⊢
      omega

/-- The raw receiver goes and takes the queued messages with it. -/
theorem Inv.close (h : Inv s) (hst : step s .close = some s') : Inv s' := by
  obtain ⟨-, hst⟩ := Option.ite_none_right_eq_some.1 hst
  cases hst
  refine ⟨?_, fun m => ?_, h.admitted, h.calm, fun hq => absurd rfl hq, h.noticed, fun hc => by cases hc⟩
  · have := h.counter
    simp only [List.length_append, List.length_nil]
    omega
  · have := h.exact m
    unfold State.count at this ⊢
    dsimp only
    rw [List.count_append, List.count_nil]
    omega

theorem Inv.turn (h : Inv s) {e : Event μ} (he : e = .beginTurn ∨ e = .finishStore ∨ e = .finishLoad)
    (hst : step s e = some s') : Inv s' := by
  rcases he with rfl | rfl | rfl <;> obtain ⟨hphase, hst⟩ := Option.ite_none_right_eq_some.1 hst <;> cases hst
  · refine ⟨h.counter, h.exact, h.admitted, h.calm, fun hq => ?_, fun _ => Or.inr (Or.inr rfl), h.discards⟩
    have := h.awake hq
    rw [hphase] at this
    simpa using this
  · exact ⟨h.counter, h.exact, h.admitted, h.calm, fun _ => Or.inr (Or.inr (Or.inr rfl)),
      fun hn => absurd hn Bool.false_ne_true, h.discards⟩
  · refine ⟨h.counter, h.exact, h.admitted, h.calm, fun hq => ?_, fun hn => ?_, h.discards⟩
    · have hlen : 0 < s.queue.length := List.length_pos_iff.2 hq
      have := h.counter
      exact Or.inr (Or.inl (decide_eq_true (by omega)))
    · have := h.noticed hn
      rw [hphase] at this
      simpa using this

theorem Inv.step (h : Inv s) {e : Event μ} (hst : step s e = some s') : Inv s' := by
  cases e with
  | send message =>
    cases hst
    exact h.enter rfl rfl rfl rfl
  | sendAdmitted message deadline =>
    cases hst
    exact h.enter (n := 0) rfl rfl rfl rfl
  | tryAdmit op expired late =>
    cases op with
    | attempt message deadline =>
      have hop : SameHolding (.blocked message deadline) (.attempt message deadline) := ⟨rfl, rfl, rfl, rfl⟩
      exact h.sendAdmitted hop hst
    | notified message deadline =>
      have hop : SameHolding (.blocked message deadline) (.notified message deadline) := ⟨rfl, rfl, rfl, rfl⟩
      exact h.sendAdmitted hop hst
    | _ => cases hst
  | push message => exact h.push hst
  | giveBack message waiter => exact h.giveBack hst
  | swap => exact h.swap hst
  | wake => exact h.wake hst
  | waitForCapacity =>
    cases hst
    refine h.setOps ⟨fun m => ?_, ?_, ?_, ?_⟩ <;> rw [total_cons] <;> exact Nat.zero_add _
  | recheck op late =>
    cases op with
    | hintChecking =>
      have hop : SameHolding (.hintBlocked : Op μ) .hintChecking := ⟨rfl, rfl, rfl, rfl⟩
      exact h.waitForCapacity hop hst
    | hintNotified =>
      have hop : SameHolding (.hintBlocked : Op μ) .hintNotified := ⟨rfl, rfl, rfl, rfl⟩
      exact h.waitForCapacity hop hst
    | _ => cases hst
  | rouse op =>
    obtain ⟨op', hr, hst⟩ := Option.bind_eq_some_iff.1 hst
    obtain ⟨ops, ha, rfl⟩ := Option.map_eq_some_iff.1 hst
    exact h.setOps (sameTotals_advance ha (sameHolding_rouse hr))
  | receive => exact h.receive hst
  | messageReceived message waiter => exact h.acknowledge hst
  | beginTurn => exact h.turn (Or.inl rfl) hst
  | finishStore => exact h.turn (Or.inr (Or.inl rfl)) hst
  | finishLoad => exact h.turn (Or.inr (Or.inr rfl)) hst
  | disconnect =>
    obtain ⟨-, hst⟩ := Option.ite_none_left_eq_some.1 hst
    cases hst
    have hkept := h.setOps (sameTotals_notifyAll s.ops)
    exact ⟨hkept.counter, hkept.exact, hkept.admitted, hkept.calm, hkept.awake, hkept.noticed, hkept.discards⟩
  | close => exact h.close hst

theorem inv_reachable (h : (system μ).Reachable s) : Inv s :=
  h.invariant Inv.new fun _ _ _ hi hst => hi.step hst

/-! ## Main results -/

/-- The accounts of the channel and of its wake-ups. -/
structure Guarantees (s : State μ) : Prop where
  /-- The counter: queued messages, reserved credits, messages received and not acknowledged yet, and what the drop of
  the receiver discarded. -/
  counter : s.messages = s.queue.length + total Op.credit s.ops + s.holding.length + s.discarded.length
  exact : (s.ops.flatMap Op.messages ++ s.queue ++ s.holding ++ s.received ++ s.returned ++
    s.discarded).Perm s.submitted
  discards : s.closed = false → s.discarded = []
  admitted : ∀ n ∈ s.admissions, n < maxPendingWorkerMessages
  calm : s.panicked = false
  /-- A failed channel send hands its message back and restores its credit. -/
  restores : ∀ message waiter s', step s (.giveBack message waiter) = some s' →
    s'.messages + 1 = s.messages ∧ s'.returned = message :: s.returned
  /-- With a message queued, the flag is set or the last `finish_turn` asked for a turn, unless a sender stands before
  its swap or `finish_turn` before its load. -/
  awake : s.queue ≠ [] → s.notification = true ∨ s.asked = true ∨ .sent ∈ s.ops ∨ s.phase = .stored
  /-- With the flag set, a wake is pending, or the loop is in the turn that will clear it. -/
  noticed : s.notification = true → 0 < s.wakes ∨ .waking ∈ s.ops ∨ s.phase = .turn

theorem Inv.perm (h : Inv s) :
    (s.ops.flatMap Op.messages ++ s.queue ++ s.holding ++ s.received ++ s.returned ++
      s.discarded).Perm s.submitted := by
  rw [List.perm_iff_count]
  intro m
  have hflat : (s.ops.flatMap Op.messages).count m = total (Op.carried m) s.ops := List.count_flatMap
  have := h.exact m
  unfold State.count at this
  simp only [List.count_append, hflat]
  exact this

theorem Inv.restores (h : Inv s) (hst : EventSignal.step s (.giveBack message waiter) = some s') :
    s'.messages + 1 = s.messages ∧ s'.returned = message :: s.returned := by
  obtain ⟨ops, ha, hst⟩ := Option.bind_eq_some_iff.1 hst
  have hcredit : total Op.credit ops + 1 =
    total Op.credit s.ops := by simpa [Op.credit] using total_advance ha Op.credit
  have hcounter := h.counter
  rcases messageReceived_cases hst with ⟨h0, -⟩ | ⟨-, ops', -, rfl⟩
  · dsimp only at h0
    omega
  · refine ⟨?_, rfl⟩
    dsimp only
    omega

theorem eventSignal_guarantees (h : (system μ).Reachable s) : Guarantees s := by
  have hi := inv_reachable h
  refine ⟨hi.counter, hi.perm, hi.discards, hi.admitted, hi.calm, fun _ _ _ => hi.restores, fun hq => ?_, fun hn => ?_⟩
  · have := hi.awake hq
    rwa [sent_mem_iff] at this
  · have := hi.noticed hn
    rwa [waking_mem_iff] at this

/-- A worker's send admitted, queued and received, and a second one returned after the drop of the receiver. -/
theorem eventSignal_guarantees_returned : ∃ s, Guarantees (μ := Nat) s ∧ s.returned = [1] ∧ s.holding = [0] := by
  have hrun : ((system Nat).run (system Nat).init
      [.sendAdmitted 0 .never, .tryAdmit (.attempt 0 .never) false false, .push 0, .receive,
        .send 1, .disconnect, .close, .push 1, .giveBack 1 none]).any
      (fun s => decide (s.returned = [1] ∧ s.holding = [0])) = true := by decide
  obtain ⟨s, hs, hp⟩ := System.exists_reachable hrun
  exact ⟨s, eventSignal_guarantees hs, of_decide_eq_true hp⟩

/-- A message received and not acknowledged is still counted; a sender between its channel send and its swap has its
message queued with no flag, no wake and no turn asked for; the drop of the receiver loses what is queued. -/
theorem eventSignal_unaccounted :
    (∃ s, (system Nat).Reachable s ∧ s.messages ≠ s.queue.length + total Op.credit s.ops) ∧
    (∃ s, (system Nat).Reachable s ∧ s.queue ≠ [] ∧ s.notification = false ∧ s.wakes = 0 ∧ .waking ∉ s.ops ∧
      s.phase = .idle ∧ s.asked = false) ∧
    (∃ s, (system Nat).Reachable s ∧ 0 ∈ s.submitted ∧ 0 ∉ s.received ++ s.returned ++ s.holding ++ s.queue ∧
      s.ops = []) := by
  refine ⟨?_, ?_, ?_⟩
  · have hrun : ((system Nat).run (system Nat).init [.send 0, .push 0, .receive]).any
        (fun s => decide (s.messages ≠ s.queue.length + total Op.credit s.ops)) = true := by decide
    obtain ⟨s, hs, hp⟩ := System.exists_reachable hrun
    exact ⟨s, hs, of_decide_eq_true hp⟩
  · have hrun : ((system Nat).run (system Nat).init [.send 0, .push 0]).any
        (fun s => decide (s.queue ≠ [] ∧ s.notification = false ∧ s.wakes = 0 ∧ .waking ∉ s.ops ∧ s.phase = .idle ∧
          s.asked = false)) = true := by decide
    obtain ⟨s, hs, hp⟩ := System.exists_reachable hrun
    exact ⟨s, hs, of_decide_eq_true hp⟩
  · have hrun : ((system Nat).run (system Nat).init [.send 0, .push 0, .swap, .wake, .disconnect, .close]).any
        (fun s => decide (0 ∈ s.submitted ∧ 0 ∉ s.received ++ s.returned ++ s.holding ++ s.queue ∧ s.ops = [])) =
          true := by
      decide
    obtain ⟨s, hs, hp⟩ := System.exists_reachable hrun
    exact ⟨s, hs, of_decide_eq_true hp⟩

end CocoaWay.EventSignal
