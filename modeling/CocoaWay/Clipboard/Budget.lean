import CocoaWay.Lib.Ledger
import CocoaWay.Lib.System

/-!
# The budget of clipboard transfers

* `tryAdd` : one atomic step of the compare-and-exchange loop that charges a counter;
* `Phase`, `Job` : where a reservation, its permit or the drop of the permit is; each job keeps what its own steps
  added to the counters;
* `State`, `system` : the two counters and the jobs of all threads, one atomic step at a time;
* `Booked` : each counter is the sum of what the jobs hold, within its limit, and each job holds what its phase says;
* `transferBudget_guarantees` : what this means for limits, refusals and permits; `reservation_without_permit` : a
  counter is charged before its permit exists.
-/

namespace CocoaWay.Clipboard
open Lib

def MAX_TRANSFERS : Nat := 8

def MAX_TRANSFER_BYTES : Nat := 64 * 1024 * 1024

def MAX_TOTAL_BYTES : Nat := 128 * 1024 * 1024

/-! ## Charging a counter -/

inductive AddOutcome
  | again (used : Nat)
  | refused
  | admitted (total : Nat)

/-- `checked_add`, within the limit. -/
def checkedTotal (used amount limit : Nat) : Option Nat :=
  if used + amount < 2 ^ 64 ∧ used + amount ≤ limit then some (used + amount) else none

/-- One atomic step of `try_add`: the load, or a weak compare-and-exchange, which may fail without reason. -/
def tryAdd (counter amount limit : Nat) (loaded : Option Nat) (spurious : Bool) : AddOutcome :=
  match loaded with
  | none => .again counter
  | some used =>
    match checkedTotal used amount limit with
    | none => .refused
    | some total => if counter = used ∧ spurious = false then .admitted total else .again counter

/-- `fetch_sub`, wrapping. -/
def fetchSub (counter amount : Nat) : Nat := (counter + 2 ^ 64 - amount) % 2 ^ 64

variable {spurious : Bool} {phase : Phase} {s : State}

theorem tryAdd_admitted {counter amount limit total : Nat} {loaded : Option Nat}
    (h : tryAdd counter amount limit loaded spurious = .admitted total) :
    total = counter + amount ∧ counter + amount ≤ limit := by
  unfold tryAdd at h
  cases loaded with
  | none => cases h
  | some used =>
    dsimp only at h
    cases ht : checkedTotal used amount limit with
    | none =>
      rw [ht] at h
      cases h
    | some t =>
      rw [ht] at h
      dsimp only at h
      split at h
      · next hc =>
        obtain rfl : t = total := AddOutcome.admitted.inj h
        unfold checkedTotal at ht
        split at ht
        · next hl =>
          obtain rfl : used + amount = t := Option.some.inj ht
          rw [hc.1]
          exact ⟨rfl, hl.2⟩
        · cases ht
      · cases h

theorem fetchSub_of_le {counter amount : Nat} (h : amount ≤ counter) (hc : counter < 2 ^ 64) :
    fetchSub counter amount + amount = counter := by
  unfold fetchSub
  have he : counter + 2 ^ 64 - amount = 2 ^ 64 + (counter - amount) := by omega
  rw [he, Nat.add_mod_left, Nat.mod_eq_of_lt (by omega)]
  omega

/-! ## Jobs -/

inductive Phase
  /-- Charging the active count; what was loaded of it. -/
  | addActive (loaded : Option Nat)
  | addBytes (loaded : Option Nat)
  /-- The bytes were refused; the active count is still charged. -/
  | rollback
  | permit
  /-- The permit's bytes were given back, its place not yet. -/
  | dropping
  | refused
  | released
  deriving DecidableEq

/-- A call of `reserve` and the permit it ends in. -/
structure Job where
  bytes : Nat
  phase : Phase
  /-- What the job's own steps added to the active count and to the bytes so far. -/
  addedActive : Int := 0
  addedBytes : Int := 0
  deriving DecidableEq

structure State where
  active : Nat
  bytes : Nat
  jobs : List Job

/-- The next atomic step of a job: the counters and the phase after it. -/
def Job.next (j : Job) (active bytes : Nat) (spurious : Bool) : Option (Nat × Nat × Phase) :=
  match j.phase with
  | .addActive loaded =>
    match tryAdd active 1 MAX_TRANSFERS loaded spurious with
    | .again used => some (active, bytes, .addActive (some used))
    | .refused => some (active, bytes, .refused)
    | .admitted total => some (total, bytes, .addBytes none)
  | .addBytes loaded =>
    match tryAdd bytes j.bytes MAX_TOTAL_BYTES loaded spurious with
    | .again used => some (active, bytes, .addBytes (some used))
    | .refused => some (active, bytes, .rollback)
    | .admitted total => some (active, total, .permit)
  | .rollback => some (fetchSub active 1, bytes, .refused)
  | .permit => some (active, fetchSub bytes j.bytes, .dropping)
  | .dropping => some (fetchSub active 1, bytes, .released)
  | .refused | .released => none

/-- The job after a step that led from the counters before to those after it. -/
def Job.moved (j : Job) (active bytes active' bytes' : Nat) (phase : Phase) : Job where
  bytes := j.bytes
  phase := phase
  addedActive := j.addedActive + (active' - active)
  addedBytes := j.addedBytes + (bytes' - bytes)

inductive Event
  /-- A thread calls `reserve`. -/
  | reserve (bytes : Nat)
  /-- A job takes its next atomic step; from `permit` this is the drop, whenever it comes. -/
  | run (job : Job) (spurious : Bool)

def step (s : State) : Event → Option State
  | .reserve bytes =>
    let phase := if bytes > MAX_TRANSFER_BYTES then .refused else .addActive none
    some { s with jobs := { bytes := bytes, phase := phase } :: s.jobs }
  | .run job spurious =>
    (job.next s.active s.bytes spurious).bind fun (active, bytes, phase) =>
      (advance job [job.moved s.active s.bytes active bytes phase] s.jobs).map fun jobs =>
        { active := active, bytes := bytes, jobs := jobs }

def system : System State Event where
  init := { active := 0, bytes := 0, jobs := [] }
  step := step

/-! ## What a job holds -/

def Job.heldActive (j : Job) : Nat :=
  match j.phase with
  | .addBytes _ | .rollback | .permit | .dropping => 1
  | .addActive _ | .refused | .released => 0

def Job.heldBytes (j : Job) : Nat :=
  match j.phase with
  | .permit => j.bytes
  | _ => 0

/-- What the job's steps added is what its phase says it holds. -/
structure Job.Settled (j : Job) : Prop where
  active : j.addedActive = j.heldActive
  bytes : j.addedBytes = j.heldBytes

/-- A step moves each counter by what it changes of the job's holding, and a charge stays within the limit. -/
theorem Job.next_counters {j : Job} {active bytes active' bytes' : Nat}
    (h : j.next active bytes spurious = some (active', bytes', phase)) (ha : active ≤ MAX_TRANSFERS)
    (hb : bytes ≤ MAX_TOTAL_BYTES) (hha : j.heldActive ≤ active) (hhb : j.heldBytes ≤ bytes) :
    active' + j.heldActive = active + (j.moved active bytes active' bytes' phase).heldActive ∧
      bytes' + j.heldBytes = bytes + (j.moved active bytes active' bytes' phase).heldBytes ∧
      active' ≤ MAX_TRANSFERS ∧ bytes' ≤ MAX_TOTAL_BYTES := by
  have hsmall : active < 2 ^ 64 ∧ bytes < 2 ^ 64 := by
    unfold MAX_TRANSFERS at ha
    unfold MAX_TOTAL_BYTES at hb
    omega
  unfold Job.next at h
  unfold Job.heldActive at hha
  unfold Job.heldBytes at hhb
  cases hp : j.phase with
  | addActive loaded =>
    simp only [hp] at h
    cases ht : tryAdd active 1 MAX_TRANSFERS loaded spurious with
    | again used =>
      rw [ht] at h
      obtain ⟨rfl, rfl, rfl⟩ : active = active' ∧ bytes = bytes' ∧ Phase.addActive (some used) = phase := by
        simpa using h
      simp [Job.heldActive, Job.heldBytes, Job.moved, hp, ha, hb]
    | refused =>
      rw [ht] at h
      obtain ⟨rfl, rfl, rfl⟩ : active = active' ∧ bytes = bytes' ∧ Phase.refused = phase := by simpa using h
      simp [Job.heldActive, Job.heldBytes, Job.moved, hp, ha, hb]
    | admitted total =>
      rw [ht] at h
      obtain ⟨rfl, rfl, rfl⟩ : total = active' ∧ bytes = bytes' ∧ Phase.addBytes none = phase := by simpa using h
      obtain ⟨rfl, hl⟩ := tryAdd_admitted ht
      simp [Job.heldActive, Job.heldBytes, Job.moved, hp, hl, hb]
  | addBytes loaded =>
    simp only [hp] at h
    cases ht : tryAdd bytes j.bytes MAX_TOTAL_BYTES loaded spurious with
    | again used =>
      rw [ht] at h
      obtain ⟨rfl, rfl, rfl⟩ : active = active' ∧ bytes = bytes' ∧ Phase.addBytes (some used) = phase := by
        simpa using h
      simp [Job.heldActive, Job.heldBytes, Job.moved, hp, ha, hb]
    | refused =>
      rw [ht] at h
      obtain ⟨rfl, rfl, rfl⟩ : active = active' ∧ bytes = bytes' ∧ Phase.rollback = phase := by simpa using h
      simp [Job.heldActive, Job.heldBytes, Job.moved, hp, ha, hb]
    | admitted total =>
      rw [ht] at h
      obtain ⟨rfl, rfl, rfl⟩ : active = active' ∧ total = bytes' ∧ Phase.permit = phase := by simpa using h
      obtain ⟨rfl, hl⟩ := tryAdd_admitted ht
      simp [Job.heldActive, Job.heldBytes, Job.moved, hp, hl, ha]
  | rollback =>
    simp only [hp, Option.some.injEq, Prod.mk.injEq] at h hha
    obtain ⟨rfl, rfl, rfl⟩ := h
    have hs := fetchSub_of_le hha hsmall.1
    obtain ⟨n, rfl⟩ := Nat.exists_eq_add_of_le' hha
    have hs := Nat.add_right_cancel hs
    simp [Job.heldActive, Job.heldBytes, Job.moved, hp, hb, hs]
    omega
  | permit =>
    simp only [hp, Option.some.injEq, Prod.mk.injEq] at h hhb
    obtain ⟨rfl, rfl, rfl⟩ := h
    have hs := fetchSub_of_le hhb hsmall.2
    simp [Job.heldActive, Job.heldBytes, Job.moved, hp, ha, hs]
    omega
  | dropping =>
    simp only [hp, Option.some.injEq, Prod.mk.injEq] at h hha
    obtain ⟨rfl, rfl, rfl⟩ := h
    have hs := fetchSub_of_le hha hsmall.1
    obtain ⟨n, rfl⟩ := Nat.exists_eq_add_of_le' hha
    have hs := Nat.add_right_cancel hs
    simp [Job.heldActive, Job.heldBytes, Job.moved, hp, hb, hs]
    omega
  | refused => simp [hp] at h
  | released => simp [hp] at h

/-! ## Every run -/

/-- Each counter is within its limit and the sum of what the jobs hold, and each job holds what its phase says. -/
structure Booked (s : State) : Prop where
  active_le : s.active ≤ MAX_TRANSFERS
  bytes_le : s.bytes ≤ MAX_TOTAL_BYTES
  active_eq : s.active = total Job.heldActive s.jobs
  bytes_eq : s.bytes = total Job.heldBytes s.jobs
  settled : ∀ j ∈ s.jobs, j.Settled

theorem Booked.reserve (h : Booked s) (bytes : Nat)
    (hp : phase = .refused ∨ phase = .addActive none) :
    Booked { s with jobs := { bytes := bytes, phase := phase } :: s.jobs } := by
  have ha : Job.heldActive { bytes := bytes, phase := phase } = 0 := by
    rcases hp with rfl | rfl <;> rfl
  have hb : Job.heldBytes { bytes := bytes, phase := phase } = 0 := by
    rcases hp with rfl | rfl <;> rfl
  refine ⟨h.active_le, h.bytes_le, ?_, ?_, fun j hj => ?_⟩
  · rw [total_cons, ha, Nat.zero_add]
    exact h.active_eq
  · rw [total_cons, hb, Nat.zero_add]
    exact h.bytes_eq
  · rcases List.mem_cons.1 hj with rfl | hj
    · exact ⟨by rw [ha]; rfl, by rw [hb]; rfl⟩
    · exact h.settled j hj

theorem Booked.run (h : Booked s) {job : Job} {active bytes : Nat}
    {jobs : List Job} (hn : job.next s.active s.bytes spurious = some (active, bytes, phase))
    (hadv : advance job [job.moved s.active s.bytes active bytes phase] s.jobs = some jobs) :
    Booked { active := active, bytes := bytes, jobs := jobs } := by
  obtain ⟨hmem, -⟩ := advance_eq_some.1 hadv
  have hla : job.heldActive ≤ s.active := by
    rw [h.active_eq]
    exact charge_le_total Job.heldActive hmem
  have hlb : job.heldBytes ≤ s.bytes := by
    rw [h.bytes_eq]
    exact charge_le_total Job.heldBytes hmem
  obtain ⟨ha, hb, hal, hbl⟩ := Job.next_counters hn h.active_le h.bytes_le hla hlb
  have hta := total_advance hadv Job.heldActive
  have htb := total_advance hadv Job.heldBytes
  rw [total_cons, total_nil, Nat.add_zero, ← h.active_eq] at hta
  rw [total_cons, total_nil, Nat.add_zero, ← h.bytes_eq] at htb
  refine ⟨hal, hbl, by dsimp only; omega, by dsimp only; omega, fun j hj => ?_⟩
  rcases mem_advance hadv hj with hj | hj
  · obtain rfl := List.mem_singleton.1 hj
    have hs := h.settled job hmem
    constructor
    · show job.addedActive + (active - s.active : Int) = _
      rw [hs.active]
      omega
    · show job.addedBytes + (bytes - s.bytes : Int) = _
      rw [hs.bytes]
      omega
  · exact h.settled j hj

theorem Booked.step {s s' : State} {e : Event} (h : Booked s) (hst : system.step s e = some s') : Booked s' := by
  cases e with
  | reserve bytes =>
    obtain rfl := Option.some.inj hst
    refine h.reserve bytes ?_
    split
    · exact Or.inl rfl
    · exact Or.inr rfl
  | run job spurious =>
    obtain ⟨⟨active, bytes, phase⟩, hn, hst⟩ := Option.bind_eq_some_iff.1 hst
    obtain ⟨jobs, hadv, rfl⟩ := Option.map_eq_some_iff.1 hst
    exact h.run hn hadv

theorem booked (h : system.Reachable s) : Booked s := by
  refine System.Reachable.invariant (I := Booked) ⟨Nat.zero_le _, Nat.zero_le _, rfl, rfl, by simp [system]⟩ ?_ h
  exact fun s e s' hi hst => hi.step hst

/-! ## The guarantees -/

structure Guarantees (s : State) : Prop where
  limits : s.active ≤ MAX_TRANSFERS ∧ s.bytes ≤ MAX_TOTAL_BYTES
  /-- A live permit holds one place and its bytes; a reservation or a drop in progress holds the place from the charge
  of the active count to its return. -/
  sums : s.active = total Job.heldActive s.jobs ∧ s.bytes = total Job.heldBytes s.jobs
  /-- What a live permit, a refused reservation and a released permit have added to the counters with all their steps.
  -/
  permit : ∀ j ∈ s.jobs, j.phase = .permit → j.addedActive = 1 ∧ j.addedBytes = j.bytes
  refused : ∀ j ∈ s.jobs, j.phase = .refused ∨ j.phase = .released → j.addedActive = 0 ∧ j.addedBytes = 0
  /-- Both counters are zero when no permit is live and no reservation or drop is in progress. -/
  quiet : (∀ j ∈ s.jobs, j.phase = .refused ∨ j.phase = .released) → s.active = 0 ∧ s.bytes = 0

/-- For every interleaving of the atomic steps of any number of threads. -/
theorem transferBudget_guarantees {s : State} (h : system.Reachable s) : Guarantees s := by
  have hb := booked h
  refine ⟨⟨hb.active_le, hb.bytes_le⟩, ⟨hb.active_eq, hb.bytes_eq⟩, fun j hj hp => ?_, fun j hj hp => ?_, fun hq => ?_⟩
  · have hs := hb.settled j hj
    exact ⟨by rw [hs.active]; simp [Job.heldActive, hp], by rw [hs.bytes]; simp [Job.heldBytes, hp]⟩
  · have hs := hb.settled j hj
    rcases hp with hp | hp
    · exact ⟨by rw [hs.active]; simp [Job.heldActive, hp], by rw [hs.bytes]; simp [Job.heldBytes, hp]⟩
    · exact ⟨by rw [hs.active]; simp [Job.heldActive, hp], by rw [hs.bytes]; simp [Job.heldBytes, hp]⟩
  · rw [hb.active_eq, hb.bytes_eq, total_eq_zero, total_eq_zero]
    constructor
    · intro j hj
      rcases hq j hj with hp | hp <;> simp [Job.heldActive, hp]
    · intro j hj
      rcases hq j hj with hp | hp <;> simp [Job.heldBytes, hp]

/-- A reservation of 3 bytes up to its charge of the active count. -/
def reservationRun : List Event :=
  [.reserve 3, .run { bytes := 3, phase := .addActive none } false,
    .run { bytes := 3, phase := .addActive (some 0) } false]

theorem transferBudget_guarantees_reserving : ∃ s, system.Reachable s ∧ s.active = 1 ∧ Guarantees s := by
  have hrun : (system.run system.init reservationRun).any (fun s => s.active = 1) = true := by decide
  obtain ⟨s, hs, ha⟩ := System.exists_reachable hrun
  exact ⟨s, hs, by simpa using ha, transferBudget_guarantees hs⟩

/-- The active count is charged before the permit exists: it is not zero although no permit is live. -/
theorem reservation_without_permit :
    (system.run system.init reservationRun).any (fun s => s.active = 1 ∧ s.jobs.all fun j => j.phase ≠ .permit) =
      true := by
  decide

end CocoaWay.Clipboard
