import CocoaWay.Lib.System
import CocoaWay.Lifecycle.Queue

/-!
# Every interleaving of the cleanup queue

* `Machine`, `Event`, `system` : the queue between the UI thread, its cleanup workers and the reaper;
* `QueueInv` : the queue invariant, relative to the cleanups enqueued and the outcomes reported so far; one lemma for
  each operation, and from them `QueueInv.poll` and `QueueInv.enqueue`;
* `Guarantees` : what callers of the queue rely on; `cleanupQueue_guarantees`.
-/

namespace CocoaWay.Lifecycle

open CocoaWay.Lib

variable {P : Type} [DecidableEq P]

/-! ## Runs -/

/-- The queue with its surroundings: `reports` are the outcomes workers have sent, `finishing` is the deadline of a
`finish` that has not returned, `result` what the last one returned if nothing was asked of the queue since. -/
structure Machine (P : Type) where
  queue : QueueState P
  enqueued : List (Ticket P)
  reports : List (Ticket P × Outcome)
  finishing : Option Instant
  result : Option Bool
  handedOff : Bool

inductive Event (P : Type)
  /-- `enqueue`: the entry is ready at once, and the pump runs. -/
  | enqueue (key : Key P) (now : Instant) (c : Calls)
  /-- A worker's cleanup ends, with an outcome or by a panic. -/
  | cleanupEnds (t : Ticket P) (result : Option Outcome)
  /-- A worker sends its outcome. -/
  | send (t : Ticket P)
  /-- A worker thread is gone without having sent. -/
  | lost (t : Ticket P)
  /-- The reaper drops a job and sends `done`. -/
  | dispose (t : Ticket P)
  /-- A `done` channel is disconnected without a message. -/
  | disposeLost (t : Ticket P)
  | poll (c : Calls)
  /-- `finish(timeout)` is called. -/
  | finish (now : Instant) (timeout : Nat)
  /-- One round of the loop of `finish`. -/
  | turn (c : Calls) (now : Instant)
  /-- `Drop`: the queue is handed to the reaper. -/
  | drop
  /-- The reaper polls a queue handed to it. -/
  | reaperPoll (c : Calls)

def Machine.init : Machine P :=
  ⟨⟨[], [], [], [], [], [], []⟩, [], [], none, none, false⟩

/-- `catch_unwind(..).unwrap_or_else(..)` around the cleanup. -/
def catchUnwind : Option Outcome → Outcome
  | some outcome => outcome
  | none => .err "cleanup worker panicked"

def QueueState.worker? (q : QueueState P) (t : Ticket P) : Option Worker :=
  (q.running.find? fun r => r.entry.ticket = t).map Running.worker

def QueueState.setWorker (t : Ticket P) (worker : Worker) (q : QueueState P) : QueueState P :=
  { q with running := q.running.map fun r => if r.entry.ticket = t then { r with worker := worker } else r }

def QueueState.disposal? (q : QueueState P) (t : Ticket P) : Option Disposal :=
  (q.disposing.find? fun d => d.ticket = t).map Disposing.receiver

def QueueState.setDisposal (t : Ticket P) (receiver : Disposal) (q : QueueState P) : QueueState P :=
  { q with disposing := q.disposing.map fun d => if d.ticket = t then { d with receiver := receiver } else d }

/-- The UI thread may call the queue: it owns it and is not inside `finish`. -/
def Machine.uiFree (m : Machine P) : Bool := !m.handedOff && m.finishing.isNone

def step (m : Machine P) : Event P → Option (Machine P)
  | .enqueue key now c =>
    if m.uiFree then
      let t : Ticket P := ⟨m.enqueued.length, key⟩
      some { m with queue := m.queue.enqueue c t now, enqueued := t :: m.enqueued, result := none }
    else none
  | .cleanupEnds t result =>
    match m.queue.worker? t with
    | some .executing => some { m with queue := m.queue.setWorker t (.returned (catchUnwind result)) }
    | _ => none
  | .send t =>
    match m.queue.worker? t with
    | some (.returned o) => some { m with queue := m.queue.setWorker t (.sent o), reports := (t, o) :: m.reports }
    | _ => none
  | .lost t =>
    match m.queue.worker? t with
    | some .executing => some { m with queue := m.queue.setWorker t .disconnected }
    | some (.returned _) => some { m with queue := m.queue.setWorker t .disconnected }
    | _ => none
  | .dispose t =>
    match m.queue.disposal? t with
    | some .retired =>
      let q := m.queue.setDisposal t .acknowledged
      some { m with queue := { q with acknowledged := t :: q.acknowledged } }
    | _ => none
  | .disposeLost t =>
    match m.queue.disposal? t with
    | some .retired => some { m with queue := m.queue.setDisposal t .disconnected }
    | _ => none
  | .poll c => if m.uiFree then some { m with queue := m.queue.poll c true, result := none } else none
  | .finish now timeout => if m.uiFree then some { m with finishing := some (now + timeout), result := none } else none
  | .turn c now =>
    match m.finishing with
    | none => none
    | some deadline =>
      let q := m.queue.poll c true
      if q.isEmpty then some { m with queue := q, finishing := none, result := some true }
      else if deadline ≤ now then some { m with queue := q, finishing := none, result := some false }
      else some { m with queue := q }
  | .drop => if m.uiFree then some { m with handedOff := true, result := none } else none
  | .reaperPoll c => if m.handedOff then some { m with queue := m.queue.poll c false, result := none } else none

def system (P : Type) [DecidableEq P] : System (Machine P) (Event P) := ⟨Machine.init, step⟩

/-! ## The queue invariant -/

/-- What the operations of the queue keep, given the cleanups enqueued, the outcomes workers have sent and the entries
an operation has taken out and not put back yet. -/
structure QueueInv (enqueued : List (Ticket P)) (reports : List (Ticket P × Outcome)) (inHand : List (Ticket P))
    (q : QueueState P) : Prop where
  custody : Custody (inHand ++ q.held) enqueued
  running_le : q.running.length ≤ 2
  sent : ∀ r ∈ q.running, ∀ o, r.worker = .sent o → (r.entry.ticket, o) ∈ reports
  reported : ∀ t ∈ q.succeeded, (t, .ok) ∈ reports
  completed : (q.silent ++ q.completed).Perm q.succeeded
  disposed : ∀ d ∈ q.disposing, d.receiver = .acknowledged → d.ticket ∈ q.acknowledged
  released : ∀ t ∈ q.released, t ∈ q.acknowledged

section Operations

variable {enqueued : List (Ticket P)} {reports : List (Ticket P × Outcome)} {q : QueueState P}

omit [DecidableEq P]

theorem tryRecv_ok {w : Worker} (h : w.tryRecv = some .ok) : w = .sent .ok := by
  cases w with
  | sent o =>
    simp only [Worker.tryRecv, Option.some.injEq] at h
    rw [h]
  | executing => simp [Worker.tryRecv] at h
  | returned o => simp [Worker.tryRecv] at h
  | disconnected => simp [Worker.tryRecv] at h

theorem QueueInv.take_running (h : QueueInv enqueued reports [] q) {index : Nat} {r : Running P}
    (hr : q.running[index]? = some r) :
    QueueInv enqueued reports [r.entry.ticket] { q with running := swapRemove q.running index } := by
  have hp := swapRemove_perm hr
  refine { h with custody := h.custody.move ?_, running_le := ?_, sent := ?_ }
  · show (r.entry.ticket :: (q.pendingTickets ++ (swapRemove q.running index).map _ ++ q.succeeded)).Perm _
    rw [List.append_assoc]
    refine List.perm_middle.symm.trans ?_
    rw [← List.cons_append, List.nil_append, QueueState.held, List.append_assoc]
    exact ((hp.map fun x : Running P => x.entry.ticket).append_right _).append_left _
  · have := swapRemove_length hr
    have := h.running_le
    show (swapRemove q.running index).length ≤ 2
    omega
  · intro x hx
    exact h.sent x (mem_of_mem_swapRemove hr hx)

variable {entry : Entry P}

theorem QueueInv.take_pending (h : QueueInv enqueued reports [] q) {ready : Entry P → Bool}
    (he : q.pending.find? ready = some entry) :
    QueueInv enqueued reports [entry.ticket] { q with pending := q.pending.eraseP ready } := by
  refine { h with custody := h.custody.move ?_ }
  show (entry.ticket :: ((q.pending.eraseP ready).map _ ++ q.runningTickets ++ q.succeeded)).Perm _
  rw [← List.cons_append, ← List.cons_append]
  exact (((find?_cons_eraseP_perm he).map Entry.ticket).append_right _).append_right _

theorem completed_retry (now : Instant) (entry : Entry P) (error : String) (notify : Bool) :
    (q.retry now entry error notify).completed = q.completed := by
  unfold QueueState.retry QueueState.completed
  dsimp only
  split
  · rw [List.filter_cons_of_neg (by simp)]
  · rfl

theorem QueueInv.retry (h : QueueInv enqueued reports [entry.ticket] q) (now : Instant)
    (error : String) (notify : Bool) : QueueInv enqueued reports [] (q.retry now entry error notify) := by
  refine { h with custody := h.custody.move ?_, completed := ?_ }
  · show ((q.pending ++ [_]).map Entry.ticket ++ q.runningTickets ++ q.succeeded).Perm _
    rw [List.map_append, List.append_assoc, List.append_assoc, QueueState.held, List.append_assoc]
    exact List.perm_middle
  · rw [completed_retry]
    exact h.completed

theorem QueueInv.start (h : QueueInv enqueued reports [entry.ticket] q) (hl : q.running.length < 2) :
    QueueInv enqueued reports [] { q with running := q.running ++ [⟨entry, .executing⟩] } := by
  refine { h with custody := h.custody.move ?_, running_le := ?_, sent := ?_ }
  · show (q.pendingTickets ++ (q.running ++ [_]).map (fun x : Running P => x.entry.ticket) ++ q.succeeded).Perm _
    rw [List.map_append, ← List.append_assoc, List.append_assoc, QueueState.held]
    exact List.perm_middle
  · simp only [List.length_append, List.length_singleton]
    omega
  · intro r hr o ho
    rcases List.mem_append.1 hr with hr | hr
    · exact h.sent r hr o ho
    · rw [List.mem_singleton.1 hr] at ho
      cases ho

theorem QueueInv.succeed (h : QueueInv enqueued reports [entry.ticket] q)
    (ho : (entry.ticket, .ok) ∈ reports) (notify : Bool) :
    QueueInv enqueued reports [] (q.succeed entry notify) := by
  cases notify with
  | true =>
    have hs : (q.succeed entry true).succeeded.Perm (entry.ticket :: q.succeeded) := by
      show ((q.disposing ++ [_]).map Disposing.ticket ++ q.released).Perm _
      rw [List.map_append, List.append_assoc]
      exact List.perm_middle
    refine { h with custody := h.custody.move ?_, reported := ?_, completed := ?_, disposed := ?_ }
    · show ((q.pendingTickets ++ q.runningTickets) ++ (q.succeed entry true).succeeded).Perm _
      exact (hs.append_left _).trans List.perm_middle
    · intro t ht
      rcases List.mem_cons.1 (hs.subset ht) with rfl | ht
      · exact ho
      · exact h.reported t ht
    · refine List.Perm.trans ?_ hs.symm
      show (q.silent ++ (entry.ticket :: q.completed)).Perm _
      exact List.perm_middle.trans (h.completed.cons _)
    · intro d hd hack
      rcases List.mem_append.1 hd with hd | hd
      · exact h.disposed d hd hack
      · rw [List.mem_singleton.1 hd] at hack
        cases hack
  | false =>
    have hs : (q.succeed entry false).succeeded.Perm (entry.ticket :: q.succeeded) := List.perm_middle
    refine { h with
      custody := h.custody.move ?_, reported := ?_, completed := ?_, disposed := ?_, released := ?_ }
    · show ((q.pendingTickets ++ q.runningTickets) ++ (q.succeed entry false).succeeded).Perm _
      exact (hs.append_left _).trans List.perm_middle
    · intro t ht
      rcases List.mem_cons.1 (hs.subset ht) with rfl | ht
      · exact ho
      · exact h.reported t ht
    · refine List.Perm.trans ?_ hs.symm
      show (entry.ticket :: q.silent ++ q.completed).Perm _
      exact h.completed.cons _
    · intro d hd hack
      exact List.mem_cons_of_mem _ (h.disposed d hd hack)
    · intro t ht
      rcases List.mem_cons.1 ht with rfl | ht
      · exact List.mem_cons_self
      · exact List.mem_cons_of_mem _ (h.released t ht)

/-- Only an entry whose worker sent `Ok` gets to `succeed`. -/
theorem QueueInv.settle {r : Running P} {outcome : Outcome} (h : QueueInv enqueued reports [r.entry.ticket] q)
    (ho : outcome = .ok → (r.entry.ticket, .ok) ∈ reports) (c : Calls) (notify : Bool) :
    QueueInv enqueued reports [] (q.settle c notify r.entry outcome) := by
  cases outcome with
  | ok => exact h.succeed (ho rfl) notify
  | err error => exact h.retry _ _ _

theorem QueueInv.scan (h : QueueInv enqueued reports [] q) (c : Calls) (notify : Bool) (fuel index : Nat) :
    QueueInv enqueued reports [] (q.scan c notify fuel index) := by
  induction fuel generalizing index q with
  | zero => exact h
  | succ fuel ih =>
    rw [QueueState.scan]
    split
    · exact h
    · rename_i r hr
      split
      · exact ih h _
      · rename_i outcome hrecv
        apply ih
        apply (h.take_running hr).settle
        rintro rfl
        exact h.sent r (List.mem_of_getElem? hr) _ (tryRecv_ok hrecv)

theorem QueueInv.pumpLoop (h : QueueInv enqueued reports [] q) (c : Calls) (fuel k : Nat) :
    QueueInv enqueued reports [] (q.pumpLoop c fuel k) := by
  induction fuel generalizing k q with
  | zero => exact h
  | succ fuel ih =>
    rw [QueueState.pumpLoop]
    split
    · rename_i hl
      split
      · exact h
      · rename_i entry he
        have ht := h.take_pending he
        dsimp only
        split
        · exact ih (ht.start hl) _
        · exact ht.retry _ _ _
    · exact h

theorem QueueInv.retain (h : QueueInv enqueued reports [] q) : QueueInv enqueued reports [] q.retain := by
  have hs : q.retain.succeeded.Perm q.succeeded := by
    have hf := (List.filter_append_perm Disposing.isAcknowledged q.disposing).map Disposing.ticket
    rw [List.map_append] at hf
    show (List.map _ (q.disposing.filter fun d : Disposing P => !d.isAcknowledged) ++ (_ ++ q.released)).Perm _
    rw [← List.append_assoc]
    exact ((List.perm_append_comm.trans hf)).append_right _
  refine { h with
    custody := h.custody.move (hs.append_left _)
    reported := fun t ht => h.reported t (hs.subset ht)
    completed := h.completed.trans hs.symm
    disposed := fun d hd => h.disposed d (List.mem_filter.1 hd).1
    released := ?_ }
  intro t ht
  rcases List.mem_append.1 ht with ht | ht
  · obtain ⟨d, hd, rfl⟩ := List.mem_map.1 ht
    obtain ⟨hd, hack⟩ := List.mem_filter.1 hd
    exact h.disposed d hd (by simpa [Disposing.isAcknowledged] using hack)
  · exact h.released t ht

theorem QueueInv.poll (h : QueueInv enqueued reports [] q) (c : Calls) (notify : Bool) :
    QueueInv enqueued reports [] (q.poll c notify) :=
  (h.retain.scan c notify _ _).pumpLoop c _ _

theorem QueueInv.enqueue (h : QueueInv enqueued reports [] q) {t : Ticket P} (ht : t ∉ enqueued) (now : Instant)
    (c : Calls) : QueueInv (t :: enqueued) reports [] (q.enqueue c t now) := by
  apply QueueInv.pumpLoop
  refine { h with custody := h.custody.issue ht ?_ }
  show ((q.pending ++ [_]).map Entry.ticket ++ q.runningTickets ++ q.succeeded).Perm _
  rw [List.map_append, List.append_assoc, List.append_assoc, List.nil_append, QueueState.held, List.append_assoc]
  exact List.perm_middle

theorem QueueInv.mono (h : QueueInv enqueued reports [] q) (x : Ticket P × Outcome) :
    QueueInv enqueued (x :: reports) [] q :=
  { h with
    sent := fun r hr o ho => List.mem_cons_of_mem x (h.sent r hr o ho)
    reported := fun t ht => List.mem_cons_of_mem x (h.reported t ht) }

/-! What a notifying call leaves to the completion callbacks. -/

theorem scan_silent (c : Calls) (fuel index : Nat) : (q.scan c true fuel index).silent = q.silent := by
  induction fuel generalizing index q with
  | zero => rfl
  | succ fuel ih =>
    rw [QueueState.scan]
    split
    · rfl
    · split
      · exact ih _
      · rename_i outcome _
        rw [ih]
        cases outcome <;> rfl

theorem pumpLoop_silent (c : Calls) (fuel k : Nat) : (q.pumpLoop c fuel k).silent = q.silent := by
  induction fuel generalizing k q with
  | zero => rfl
  | succ fuel ih =>
    rw [QueueState.pumpLoop]
    split
    · split
      · rfl
      · dsimp only
        split
        · exact ih _
        · rfl
    · rfl

theorem poll_silent (c : Calls) : (q.poll c true).silent = q.silent :=
  (pumpLoop_silent c _ _).trans (scan_silent c _ _)

end Operations

/-! ## The workers and the reaper -/

section Threads

variable {enqueued : List (Ticket P)} {reports : List (Ticket P × Outcome)} {q : QueueState P}

theorem setWorker_tickets (t : Ticket P) (w : Worker) : (q.setWorker t w).runningTickets = q.runningTickets := by
  show (q.running.map _).map _ = q.running.map _
  rw [List.map_map]
  apply List.map_congr_left
  intro r _
  show (if r.entry.ticket = t then { r with worker := w } else r).entry.ticket = r.entry.ticket
  split <;> rfl

theorem setDisposal_tickets (t : Ticket P) (d : Disposal) :
    (q.setDisposal t d).disposingTickets = q.disposingTickets := by
  show (q.disposing.map _).map _ = q.disposing.map _
  rw [List.map_map]
  apply List.map_congr_left
  intro x _
  show (if x.ticket = t then { x with receiver := d } else x).ticket = x.ticket
  split <;> rfl

theorem QueueInv.setWorker (h : QueueInv enqueued reports [] q) (t : Ticket P) {w : Worker}
    (hw : ∀ o, w = .sent o → (t, o) ∈ reports) : QueueInv enqueued reports [] (q.setWorker t w) := by
  refine { h with custody := ?_, running_le := ?_, sent := ?_ }
  · show Custody (q.pendingTickets ++ (q.setWorker t w).runningTickets ++ q.succeeded) enqueued
    rw [setWorker_tickets]
    exact h.custody
  · show (q.running.map _).length ≤ 2
    rw [List.length_map]
    exact h.running_le
  · intro r hr o ho
    obtain ⟨x, hx, rfl⟩ := List.mem_map.1 hr
    by_cases hxt : x.entry.ticket = t
    · rw [if_pos hxt] at ho ⊢
      show (x.entry.ticket, o) ∈ reports
      rw [hxt]
      exact hw o ho
    · rw [if_neg hxt] at ho ⊢
      exact h.sent x hx o ho

theorem QueueInv.setDisposal (h : QueueInv enqueued reports [] q) (t : Ticket P) {d : Disposal}
    (hd : d = .acknowledged → t ∈ q.acknowledged) : QueueInv enqueued reports [] (q.setDisposal t d) := by
  have hs : (q.setDisposal t d).succeeded = q.succeeded := by
    show (q.setDisposal t d).disposingTickets ++ q.released = _
    rw [setDisposal_tickets]
    rfl
  refine { h with custody := ?_, reported := ?_, completed := ?_, disposed := ?_ }
  · show Custody (q.pendingTickets ++ q.runningTickets ++ (q.setDisposal t d).succeeded) enqueued
    rw [hs]
    exact h.custody
  · rw [hs]
    exact h.reported
  · rw [hs]
    exact h.completed
  · intro y hy hack
    obtain ⟨x, hx, rfl⟩ := List.mem_map.1 hy
    by_cases hxt : x.ticket = t
    · rw [if_pos hxt] at hack ⊢
      show x.ticket ∈ q.acknowledged
      rw [hxt]
      exact hd hack
    · rw [if_neg hxt] at hack ⊢
      exact h.disposed x hx hack

omit [DecidableEq P] in
theorem QueueInv.acknowledge (h : QueueInv enqueued reports [] q) (t : Ticket P) :
    QueueInv enqueued reports [] { q with acknowledged := t :: q.acknowledged } :=
  { h with
    disposed := fun d hd hack => List.mem_cons_of_mem t (h.disposed d hd hack)
    released := fun x hx => List.mem_cons_of_mem t (h.released x hx) }

theorem setWorker_isEmpty (t : Ticket P) (w : Worker) : (q.setWorker t w).isEmpty = q.isEmpty := by
  simp [QueueState.isEmpty, QueueState.setWorker]

theorem setDisposal_isEmpty (t : Ticket P) (d : Disposal) : (q.setDisposal t d).isEmpty = q.isEmpty := by
  simp [QueueState.isEmpty, QueueState.setDisposal]

end Threads

/-! ## Every run -/

/-- The invariant of the runs. -/
structure Inv (m : Machine P) : Prop where
  queue : QueueInv m.enqueued m.reports [] m.queue
  fresh : ∀ t ∈ m.enqueued, t.id < m.enqueued.length
  silent : m.handedOff = false → m.queue.silent = []
  /-- No result stands while `finish` is running. -/
  finishing : m.finishing ≠ none → m.result = none
  result : m.result = some true → m.queue.isEmpty = true

omit [DecidableEq P] in
theorem inv_init : Inv (Machine.init (P := P)) where
  queue :=
    { custody := Custody.nil
      running_le := by simp [Machine.init]
      sent := by simp [Machine.init]
      reported := by simp [Machine.init, QueueState.succeeded, QueueState.disposingTickets]
      completed := List.Perm.refl _
      disposed := by simp [Machine.init]
      released := by simp [Machine.init] }
  fresh := by simp [Machine.init]
  silent := fun _ => rfl
  finishing := fun _ => rfl
  result := fun _ => rfl

variable {m : Machine P} {t : Ticket P}

theorem Inv.setWorker (h : Inv m) (t : Ticket P) {w : Worker}
    (hw : ∀ o, w = .sent o → (t, o) ∈ m.reports) : Inv { m with queue := m.queue.setWorker t w } :=
  { h with
    queue := h.queue.setWorker t hw
    silent := h.silent
    result := fun hr => (setWorker_isEmpty t w).trans (h.result hr) }

theorem Inv.step {m m' : Machine P} {e : Event P} (h : Inv m) (hs : step m e = some m') : Inv m' := by
  cases e with
  | enqueue key now c =>
    simp only [Lifecycle.step] at hs
    split at hs
    · rename_i hui
      cases hs
      have hnew : (⟨m.enqueued.length, key⟩ : Ticket P) ∉ m.enqueued := by
        intro hm
        have := h.fresh _ hm
        exact Nat.lt_irrefl _ this
      refine ⟨h.queue.enqueue hnew now c, ?_, ?_, fun _ => rfl, by simp⟩
      · intro t ht
        rw [List.length_cons]
        rcases List.mem_cons.1 ht with rfl | ht
        · exact Nat.lt_succ_self _
        · exact Nat.lt_trans (h.fresh t ht) (Nat.lt_succ_self _)
      · intro hh
        exact (pumpLoop_silent c _ _).trans (h.silent hh)
    · cases hs
  | cleanupEnds t result =>
    simp only [Lifecycle.step] at hs
    split at hs
    · cases hs
      exact h.setWorker t (by simp)
    · cases hs
  | send t =>
    simp only [Lifecycle.step] at hs
    split at hs
    · rename_i o _
      cases hs
      refine Inv.setWorker (m := { m with reports := (t, o) :: m.reports }) { h with queue := h.queue.mono _ } t ?_
      rintro o' ho
      cases ho
      exact List.mem_cons_self
    · cases hs
  | lost t =>
    simp only [Lifecycle.step] at hs
    split at hs
    · cases hs
      exact h.setWorker t (by simp)
    · cases hs
      exact h.setWorker t (by simp)
    · cases hs
  | dispose t =>
    simp only [Lifecycle.step] at hs
    split at hs
    · cases hs
      exact { h with
        queue := (h.queue.acknowledge t).setDisposal t fun _ => List.mem_cons_self
        silent := h.silent
        result := fun hr => (setDisposal_isEmpty t _).trans (h.result hr) }
    · cases hs
  | disposeLost t =>
    simp only [Lifecycle.step] at hs
    split at hs
    · cases hs
      exact { h with
        queue := h.queue.setDisposal t (by simp)
        silent := h.silent
        result := fun hr => (setDisposal_isEmpty t _).trans (h.result hr) }
    · cases hs
  | poll c =>
    simp only [Lifecycle.step] at hs
    split at hs
    · cases hs
      exact { h with
        queue := h.queue.poll c true
        silent := fun hh => (poll_silent c).trans (h.silent hh)
        finishing := fun _ => rfl
        result := by simp }
    · cases hs
  | finish now timeout =>
    simp only [Lifecycle.step] at hs
    split at hs
    · cases hs
      exact { h with finishing := fun _ => rfl, result := by simp }
    · cases hs
  | turn c now =>
    simp only [Lifecycle.step] at hs
    split at hs
    · cases hs
    · rename_i deadline hd
      have hnone := h.finishing (by simp [hd])
      have hq := h.queue.poll c true
      have hsil : m.handedOff = false → (m.queue.poll c true).silent = [] :=
        fun hh => (poll_silent c).trans (h.silent hh)
      by_cases he : (m.queue.poll c true).isEmpty = true
      · rw [if_pos he] at hs
        cases hs
        exact { h with queue := hq, silent := hsil, finishing := by simp, result := fun _ => he }
      · rw [if_neg he] at hs
        split at hs
        · cases hs
          exact { h with queue := hq, silent := hsil, finishing := by simp, result := by simp }
        · cases hs
          exact { h with queue := hq, silent := hsil, result := fun hr => by simp [hnone] at hr }
  | drop =>
    simp only [Lifecycle.step] at hs
    split at hs
    · cases hs
      exact { h with silent := by simp, finishing := fun _ => rfl, result := by simp }
    · cases hs
  | reaperPoll c =>
    simp only [Lifecycle.step] at hs
    split at hs
    · rename_i hh
      cases hs
      exact { h with
        queue := h.queue.poll c false
        silent := fun hf => by simp [hh] at hf
        finishing := fun _ => rfl
        result := by simp }
    · cases hs

/-! ## What callers rely on -/

omit [DecidableEq P] in
theorem mem_keys {q : QueueState P} {k : Key P} :
    k ∈ q.keys ↔ ∃ t, t.key = k ∧ (t ∈ q.pendingTickets ∨ t ∈ q.runningTickets ∨ t ∈ q.disposingTickets) := by
  simp only [QueueState.keys, QueueState.pendingTickets, QueueState.runningTickets, QueueState.disposingTickets,
    List.mem_append, List.mem_map]
  constructor
  · rintro ((⟨e, he, rfl⟩ | ⟨r, hr, rfl⟩) | ⟨d, hd, rfl⟩)
    · exact ⟨e.ticket, rfl, Or.inl ⟨e, he, rfl⟩⟩
    · exact ⟨r.entry.ticket, rfl, Or.inr (Or.inl ⟨r, hr, rfl⟩)⟩
    · exact ⟨d.ticket, rfl, Or.inr (Or.inr ⟨d, hd, rfl⟩)⟩
  · rintro ⟨t, rfl, ⟨e, he, rfl⟩ | ⟨r, hr, rfl⟩ | ⟨d, hd, rfl⟩⟩
    · exact Or.inl (Or.inl ⟨e, he, rfl⟩)
    · exact Or.inl (Or.inr ⟨r, hr, rfl⟩)
    · exact Or.inr ⟨d, hd, rfl⟩

omit [DecidableEq P] in
/-- The keys in the queue are those of the enqueued cleanups that are not released. -/
theorem Inv.mem_keys (h : Inv m) {k : Key P} :
    k ∈ m.queue.keys ↔ ∃ t ∈ m.enqueued, t ∉ m.queue.released ∧ t.key = k := by
  have hn := h.queue.custody.held_nodup
  simp only [List.nil_append, QueueState.held, QueueState.succeeded, ← List.append_assoc] at hn
  rw [Lifecycle.mem_keys]
  constructor
  · rintro ⟨t, hk, ht⟩
    have hin : t ∈ m.queue.pendingTickets ++ m.queue.runningTickets ++ m.queue.disposingTickets := by
      simpa only [List.mem_append, or_assoc] using ht
    refine ⟨t, h.queue.custody.mem_iff.1 ?_, List.disjoint_of_nodup_append hn hin, hk⟩
    simp only [List.nil_append, QueueState.held, QueueState.succeeded, ← List.append_assoc]
    exact List.mem_append_left _ hin
  · rintro ⟨t, ht, hr, hk⟩
    have hin := h.queue.custody.mem_iff.2 ht
    simp only [List.nil_append, QueueState.held, QueueState.succeeded, List.mem_append, or_assoc] at hin
    refine ⟨t, hk, ?_⟩
    rcases hin with hin | hin | hin | hin
    · exact Or.inl hin
    · exact Or.inr (Or.inl hin)
    · exact Or.inr (Or.inr hin)
    · exact absurd hin hr

theorem count_completed (q : QueueState P) (t : Ticket P) : q.completed.count t = q.completions.count (t, .ok) := by
  unfold QueueState.completed
  induction q.completions with
  | nil => rfl
  | cons x l ih =>
    obtain ⟨y, o⟩ := x
    cases o with
    | ok =>
      rw [List.filter_cons_of_pos (by simp), List.map_cons, List.count_cons, List.count_cons, ih]
      simp
    | err error =>
      rw [List.filter_cons_of_neg (by simp), ih, List.count_cons]
      simp

/-- The guarantees of the cleanup queue, in a state of a run. -/
structure Guarantees (m : Machine P) : Prop where
  /-- Every enqueued cleanup is in exactly one place, and there once. -/
  one_place : ∀ t ∈ m.enqueued,
    m.queue.pendingTickets.count t + m.queue.runningTickets.count t + m.queue.disposingTickets.count t +
      m.queue.released.count t = 1
  /-- Nothing else is in any place. -/
  only_enqueued : ∀ t ∈ m.queue.held, t ∈ m.enqueued
  two_at_once : m.queue.running.length ≤ 2
  /-- Resources go to disposal only after the worker reported success. -/
  ok_first : ∀ t ∈ m.queue.disposingTickets ++ m.queue.released, (t, .ok) ∈ m.reports
  /-- Success is announced once, when the cleanup leaves `running` for disposal. -/
  completes_once : m.handedOff = false → ∀ t ∈ m.enqueued,
    m.queue.completions.count (t, .ok) = if t ∈ m.queue.disposingTickets ++ m.queue.released then 1 else 0
  session_busy : ∀ id, m.queue.sessionBusy id = true ↔
    ∃ t ∈ m.enqueued, t ∉ m.queue.released ∧ ∃ slot, t.key = .session id slot
  display_busy : ∀ slot, m.queue.displayBusy slot = true ↔
    ∃ t ∈ m.enqueued, t ∉ m.queue.released ∧ (t.key = .display slot ∨ ∃ id, t.key = .session id slot)
  acknowledged : ∀ t ∈ m.queue.released, t ∈ m.queue.acknowledged
  /-- When `finish` has returned true, everything enqueued is released. -/
  finish : m.result = some true → ∀ t ∈ m.enqueued, t ∈ m.queue.released

theorem Inv.one_place (h : Inv m) (ht : t ∈ m.enqueued) :
    m.queue.pendingTickets.count t + m.queue.runningTickets.count t + m.queue.disposingTickets.count t +
      m.queue.released.count t = 1 := by
  have hc := h.queue.custody.count_eq_one ht
  simp only [List.nil_append, QueueState.held, QueueState.succeeded, List.count_append] at hc
  omega

theorem Inv.completes_once (h : Inv m) (hh : m.handedOff = false) (ht : t ∈ m.enqueued) :
    m.queue.completions.count (t, .ok) = if t ∈ m.queue.succeeded then 1 else 0 := by
  have hp := h.queue.completed
  rw [h.silent hh, List.nil_append] at hp
  rw [← count_completed, hp.count_eq]
  split
  · rename_i hin
    have hone := h.one_place ht
    have hpos : 0 < m.queue.succeeded.count t := List.count_pos_iff.2 hin
    rw [QueueState.succeeded, List.count_append] at hpos ⊢
    omega
  · rename_i hin
    exact List.count_eq_zero.2 hin

theorem Inv.sessionBusy_iff (h : Inv m) (id : P) :
    m.queue.sessionBusy id = true ↔ ∃ t ∈ m.enqueued, t ∉ m.queue.released ∧ ∃ slot, t.key = .session id slot := by
  unfold QueueState.sessionBusy
  rw [List.any_eq_true]
  constructor
  · rintro ⟨k, hk, hb⟩
    obtain ⟨t, ht, hr, rfl⟩ := h.mem_keys.1 hk
    refine ⟨t, ht, hr, ?_⟩
    split at hb
    · rename_i candidate slot heq
      exact ⟨slot, by rw [heq, of_decide_eq_true hb]⟩
    · cases hb
  · rintro ⟨t, ht, hr, slot, hk⟩
    exact ⟨_, h.mem_keys.2 ⟨t, ht, hr, hk⟩, by simp⟩

omit [DecidableEq P] in
theorem Inv.displayBusy_iff (h : Inv m) (slot : String) : m.queue.displayBusy slot = true ↔
      ∃ t ∈ m.enqueued, t ∉ m.queue.released ∧ (t.key = .display slot ∨ ∃ id, t.key = .session id slot) := by
  unfold QueueState.displayBusy
  rw [List.any_eq_true]
  constructor
  · rintro ⟨k, hk, hb⟩
    obtain ⟨t, ht, hr, rfl⟩ := h.mem_keys.1 hk
    refine ⟨t, ht, hr, ?_⟩
    split at hb
    · rename_i id display heq
      exact Or.inr ⟨id, by rw [heq, of_decide_eq_true hb]⟩
    · rename_i display heq
      exact Or.inl (by rw [heq, of_decide_eq_true hb])
    · cases hb
  · rintro ⟨t, ht, hr, hk | ⟨id, hk⟩⟩
    · exact ⟨_, h.mem_keys.2 ⟨t, ht, hr, hk⟩, by simp⟩
    · exact ⟨_, h.mem_keys.2 ⟨t, ht, hr, hk⟩, by simp⟩

omit [DecidableEq P] in
theorem Inv.finish (h : Inv m) (hr : m.result = some true) (ht : t ∈ m.enqueued) : t ∈ m.queue.released := by
  have he := h.result hr
  simp only [QueueState.isEmpty, Bool.and_eq_true, List.isEmpty_iff] at he
  obtain ⟨⟨hp, hrun⟩, hd⟩ := he
  have hin := h.queue.custody.mem_iff.2 ht
  simpa [QueueState.held, QueueState.succeeded, QueueState.pendingTickets, QueueState.runningTickets,
    QueueState.disposingTickets, hp, hrun, hd] using hin

theorem Inv.guarantees (h : Inv m) : Guarantees m where
  one_place := fun _ => h.one_place
  only_enqueued := fun _ => h.queue.custody.mem_iff.1
  two_at_once := h.queue.running_le
  ok_first := h.queue.reported
  completes_once := fun hh _ => h.completes_once hh
  session_busy := h.sessionBusy_iff
  display_busy := h.displayBusy_iff
  acknowledged := h.queue.released
  finish := fun hr _ => h.finish hr

/-- In every interleaving of enqueues, worker outcomes, polls, `finish` and disposals, no cleanup is lost, doubled or
released before its worker succeeded and its disposal was acknowledged. -/
theorem cleanupQueue_guarantees {m : Machine P} (h : (system P).Reachable m) : Guarantees m :=
  (h.invariant (I := Inv) inv_init fun _ _ _ hi hs => hi.step hs).guarantees

/-- A session cleanup panics once and is retried, a display cleanup runs beside it, and `finish` waits for both
disposals. -/
def retriedRun : List (Event Nat) :=
  let at0 (now : Instant) : Calls := ⟨fun _ => now, fun _ => ⟨now, none, now⟩⟩
  let session : Ticket Nat := ⟨0, .session 7 "session-a"⟩
  let display : Ticket Nat := ⟨1, .display "display-1"⟩
  [.enqueue (.session 7 "session-a") 0 (at0 0), .enqueue (.display "display-1") 0 (at0 0),
   .cleanupEnds session none, .send session, .cleanupEnds display (some .ok), .send display, .poll (at0 10),
   .finish 100000000 15000000000, .turn (at0 200000000) 200000000, .cleanupEnds session (some .ok), .dispose display,
   .send session, .turn (at0 300000000) 300000000, .dispose session, .turn (at0 400000000) 400000000]

theorem cleanupQueue_guarantees_retried :
    ∃ m : Machine Nat, Guarantees m ∧ m.result = some true ∧
      m.queue.completions.map Prod.snd = [.ok, .ok, .err "cleanup worker panicked"] := by
  have hrun : ((system Nat).run (system Nat).init retriedRun).any
      (fun m => m.result == some true &&
        decide (m.queue.completions.map Prod.snd = [.ok, .ok, .err "cleanup worker panicked"])) = true := by
    decide
  obtain ⟨m, hm, hp⟩ := System.exists_reachable hrun
  simp only [Bool.and_eq_true, beq_iff_eq, decide_eq_true_eq] at hp
  exact ⟨m, cleanupQueue_guarantees hm, hp.1, hp.2⟩

end CocoaWay.Lifecycle
