import CocoaWay.Lib.Ledger
import CocoaWay.RenderBudget.Basic

/-!
# The texture budget keeps its accounts

* `ofClient`, `oversizedOnly`, `normalOnly` : what a reservation charges to each counter;
* `Inv` : every counter is the total of its charge over the live reservations, within its limit;
* `Inv.charge`, `Inv.drop`, `Inv.frame` : one lemma for each kind of operation;
* `textureBudget_guarantees` : the accounts after any sequence of operations.
-/

namespace CocoaWay.RenderBudget
open Lib

variable {κ : Type*} [DecidableEq κ] {b : TextureBudget} {s s' : State κ}

/-! ## Charges -/

/-- A charge to the client `c` alone. -/
def ofClient (c : κ) (f : Reservation κ → Nat) (r : Reservation κ) : Nat := if r.client = c then f r else 0

/-- A charge of the oversized reservations alone. -/
def oversizedOnly (f : Reservation κ → Nat) (r : Reservation κ) : Nat := if r.oversized then f r else 0

/-- A charge of the other reservations alone. -/
def normalOnly (f : Reservation κ → Nat) (r : Reservation κ) : Nat := if r.oversized then 0 else f r

/-- A reservation charges one allocation. -/
def one (_ : Reservation κ) : Nat := 1

theorem ofClient_le (c : κ) (f : Reservation κ → Nat) (r : Reservation κ) : ofClient c f r ≤ f r := by
  unfold ofClient
  split <;> omega

omit [DecidableEq κ] in
theorem oversizedOnly_le (f : Reservation κ → Nat) (r : Reservation κ) : oversizedOnly f r ≤ f r := by
  unfold oversizedOnly
  split <;> omega

variable {credit : Option (Reservation κ)} {r : Reservation κ} {c : κ} {wake : κ} {idle : Option (Reservation κ)}
  {l : List (Reservation κ)} {client : Client} {bytes : Nat}

theorem ofClient_self (f : Reservation κ → Nat) (h : r.client = c) : ofClient c f r = f r := if_pos h

theorem ofClient_of_ne (f : Reservation κ → Nat) (h : r.client ≠ c) : ofClient c f r = 0 := if_neg h

/-- A client's charge splits into the normal and the oversized part. -/
theorem total_ofClient_split (c : κ) (f : Reservation κ → Nat) (l : List (Reservation κ)) :
    total (ofClient c f) l = total (ofClient c (normalOnly f)) l + total (ofClient c (oversizedOnly f)) l := by
  rw [← total_add]
  congr 1
  funext r
  unfold ofClient normalOnly oversizedOnly
  by_cases hc : r.client = c <;> cases r.oversized <;> simp [hc]

theorem total_ofClient_le (c : κ) (f : Reservation κ → Nat) (l : List (Reservation κ)) :
    total (ofClient c f) l ≤ total f l := total_mono fun r _ => ofClient_le c f r

/-! ## Wrapping counters -/

theorem wrappingAdd_eq {a n : Nat} (h : a + n < usizeSize) : wrappingAdd a n = a + n := if_pos h

theorem wrappingSub_eq {a n : Nat} (hn : n ≤ a) : wrappingSub a n = a - n := if_pos hn

/-- The readers are the calls of `begin_read` less those of `end_read`, modulo the word. -/
def Cell.Exact (c : Cell) : Prop := c.readers < usizeSize ∧ (c.readers + c.ended) % usizeSize = c.begun % usizeSize

theorem Cell.exact_new : Cell.new.Exact := ⟨by decide, rfl⟩

theorem Cell.Exact.beginRead {c : Cell} (h : c.Exact) :
    Cell.Exact { c with readers := wrappingAdd c.readers 1, begun := c.begun + 1 } := by
  unfold Cell.Exact wrappingAdd usizeSize at *
  dsimp only
  split <;> omega

theorem Cell.Exact.endRead {c : Cell} (h : c.Exact) :
    Cell.Exact { c with readers := wrappingSub c.readers 1, ended := c.ended + 1 } := by
  unfold Cell.Exact wrappingSub usizeSize at *
  dsimp only
  split <;> omega

/-! ## The invariant -/

/-- The counters of a client are the totals of its live reservations. -/
structure Client.Exact (l : List (Reservation κ)) (c : κ) (client : Client) : Prop where
  bytes : client.bytes = total (ofClient c Reservation.bytes) l
  allocations : client.allocations = total (ofClient c one) l
  oversizedBytes : client.oversizedBytes = total (ofClient c (oversizedOnly Reservation.bytes)) l
  oversizedAllocations : client.oversizedAllocations = total (ofClient c (oversizedOnly one)) l

/-- A reservation of the client that a later one replaced. -/
def Replaced (s : State κ) (c : κ) (r : Reservation κ) : Prop := r.client = c ∧ r.id ∈ s.replaced

structure Inv (b : TextureBudget) (s : State κ) : Prop where
  bytes_eq : s.bytes = total Reservation.bytes s.live
  allocations_eq : s.allocations = total one s.live
  bytes_le : s.bytes ≤ b.maxBytes
  allocations_le : s.allocations ≤ b.maxAllocations
  clients : ∀ c, (s.clients c).Exact s.live c
  sized : ∀ r ∈ s.live, r.oversized = decide (b.maxClientBytes < r.bytes)
  normal : ∀ c, WithinAllowance (ofClient c (normalOnly Reservation.bytes)) b.maxClientBytes (Replaced s c) s.live
  local_allocations : ∀ c, WithinAllowance (ofClient c one) b.maxClientAllocations (Replaced s c) s.live
  oversized : ∀ c, WithinAllowance (ofClient c (oversizedOnly one)) 1 (Replaced s c) s.live
  cells : ∀ id, (s.cells id).Exact

theorem Inv.new : Inv b (State.new : State κ) :=
  ⟨rfl, rfl, Nat.zero_le _, Nat.zero_le _, fun _ => ⟨rfl, rfl, rfl, rfl⟩, fun _ hr => absurd hr List.not_mem_nil,
    fun _ => withinAllowance_nil, fun _ => withinAllowance_nil, fun _ => withinAllowance_nil, fun _ => Cell.exact_new⟩

/-- The charges are the same in both states. -/
structure SameCharges (s s' : State κ) : Prop where
  bytes : s'.bytes = s.bytes
  allocations : s'.allocations = s.allocations
  live : s'.live = s.live
  replaced : s'.replaced = s.replaced
  clients : ∀ c, ({ s'.clients c with waiting := (s.clients c).waiting } : Client) = s.clients c

/-- An operation that moves no charge keeps the accounts. -/
theorem Inv.frame (h : Inv b s) (hs : SameCharges s s') (hc : ∀ id, (s'.cells id).Exact) : Inv b s' := by
  have hrep : ∀ c, Replaced s' c = Replaced s c := fun c => by unfold Replaced; rw [hs.replaced]
  refine ⟨by rw [hs.bytes, hs.live]; exact h.bytes_eq, by rw [hs.allocations, hs.live]; exact h.allocations_eq,
    hs.bytes ▸ h.bytes_le, hs.allocations ▸ h.allocations_le, fun c => ?_, hs.live ▸ h.sized,
    fun c => by rw [hrep, hs.live]; exact h.normal c, fun c => by rw [hrep, hs.live]; exact h.local_allocations c,
    fun c => by rw [hrep, hs.live]; exact h.oversized c, hc⟩
  rw [hs.live]
  have hcl := hs.clients c
  have hex := h.clients c
  rw [← hcl] at hex
  exact ⟨hex.bytes, hex.allocations, hex.oversizedBytes, hex.oversizedAllocations⟩

omit [DecidableEq κ] in
theorem SameCharges.refl (s : State κ) : SameCharges s s := ⟨rfl, rfl, rfl, rfl, fun _ => rfl⟩

theorem sameCharges_setWaiting (c : κ) (waiting : Bool) :
    ∀ c', ({ Function.update s.clients c { s.clients c with waiting := waiting } c' with
      waiting := (s.clients c').waiting } : Client) = s.clients c' := by
  intro c'
  by_cases hc : c' = c
  · subst hc
    simp
  · simp [Function.update_of_ne hc]

theorem sameCharges_wait (s : State κ) (wake : κ) : SameCharges s (wait s wake) := by
  unfold wait
  split
  · exact SameCharges.refl s
  · exact ⟨rfl, rfl, rfl, rfl, sameCharges_setWaiting wake true⟩

theorem wait_cells (s : State κ) (wake : κ) : (wait s wake).cells = s.cells := by
  unfold wait
  split <;> rfl

theorem sameCharges_notify (s : State κ) (wake : κ) : SameCharges s (notify s wake) := by
  unfold notify
  split
  · exact ⟨rfl, rfl, rfl, rfl, sameCharges_setWaiting wake false⟩
  · exact SameCharges.refl s

theorem notify_cells (s : State κ) (wake : κ) : (notify s wake).cells = s.cells := by
  unfold notify
  split <;> rfl

theorem Inv.setCell (h : Inv b s) (id : Nat) {cell : Cell} (hc : cell.Exact) : Inv b (s.setCell id cell) := by
  refine h.frame ⟨rfl, rfl, rfl, rfl, fun _ => rfl⟩ fun id' => ?_
  by_cases hid : id' = id
  · subst hid
    simpa [State.setCell] using hc
  · simpa [State.setCell, Function.update_of_ne hid] using h.cells id'

/-! ## Admission -/

theorem creditOf_mem (hidle : ∀ r ∈ idle, r.budget = b.id → r ∈ s.live) :
    ∀ r ∈ creditOf b s wake idle, r ∈ s.live ∧ r.client = wake := by
  intro r hr
  simp only [creditOf, Option.mem_def, Option.filter_eq_some_iff, Bool.and_eq_true, beq_iff_eq] at hr
  exact ⟨hidle r hr.1 hr.2.1.1, hr.2.1.2⟩

/-- What the admission test credits to a counter is the charge of the credited reservation. -/
theorem credit_normal (hc : ∀ r ∈ credit, r ∈ s.live ∧ r.client = wake) :
    ((credit.filter fun r => !r.oversized).elim 0 fun r => r.bytes) =
      credit.elim 0 (ofClient wake (normalOnly Reservation.bytes)) := by
  cases credit with
  | none => rfl
  | some r =>
    rw [Option.elim_some, ofClient_self _ (hc r rfl).2]
    cases hr : r.oversized <;> simp [Option.filter, normalOnly, hr]

theorem credit_oversized (hc : ∀ r ∈ credit, r ∈ s.live ∧ r.client = wake) :
    (if credit.any fun r => r.oversized then 1 else 0) = credit.elim 0 (ofClient wake (oversizedOnly one)) := by
  cases credit with
  | none => rfl
  | some r =>
    rw [Option.elim_some, ofClient_self _ (hc r rfl).2]
    cases hr : r.oversized <;> simp [oversizedOnly, one, hr]

theorem credit_allocations (hc : ∀ r ∈ credit, r ∈ s.live ∧ r.client = wake) :
    (if credit.isSome then 1 else 0) = credit.elim 0 (ofClient wake one) := by
  cases credit with
  | none => rfl
  | some r =>
    rw [Option.elim_some, ofClient_self _ (hc r rfl).2]
    rfl

/-- What an allocation that is not under pressure fits into. -/
structure Fits (b : TextureBudget) (s : State κ) (bytes : Nat) (wake : κ) (credit : Option (Reservation κ)) : Prop where
  global_bytes : bytes + s.bytes ≤ b.maxBytes
  global_allocations : s.allocations < b.maxAllocations
  normal : bytes ≤ b.maxClientBytes →
    bytes + (total (ofClient wake (normalOnly Reservation.bytes)) s.live -
      credit.elim 0 (ofClient wake (normalOnly Reservation.bytes))) ≤ b.maxClientBytes
  oversized : b.maxClientBytes < bytes →
    1 + (total (ofClient wake (oversizedOnly one)) s.live - credit.elim 0 (ofClient wake (oversizedOnly one))) ≤ 1
  local_allocations : 1 + (total (ofClient wake one) s.live - credit.elim 0 (ofClient wake one)) ≤
    b.maxClientAllocations

theorem Inv.fits (h : Inv b s) (hb : 0 < bytes)
    (hc : ∀ r ∈ credit, r ∈ s.live ∧ r.client = wake) (hp : underPressure b s bytes wake credit = false) :
    Fits b s bytes wake credit := by
  have hcl := h.clients wake
  have hsplit := total_ofClient_split wake Reservation.bytes s.live
  simp only [underPressure, credit_normal hc, credit_oversized hc, credit_allocations hc, hcl.bytes, hcl.allocations,
    hcl.oversizedBytes, hcl.oversizedAllocations, Bool.or_eq_false_iff, Bool.and_eq_false_iff, decide_eq_false_iff_not,
    bne_eq_false_iff_eq, Bool.not_eq_false', decide_eq_true_eq] at hp
  obtain ⟨⟨⟨⟨h1, h2⟩, h3⟩, h4⟩, h5⟩ := hp
  have hle := h.bytes_le
  refine ⟨by omega, by omega, fun hn => ?_, fun ho => ?_, by omega⟩
  · rcases h4 with h4 | h4
    · omega
    · rw [hsplit, Nat.add_sub_cancel] at h4
      omega
  · rcases h3 with h3 | h3
    · exact absurd ho h3
    · omega

theorem Client.Exact.charge (h : client.Exact l c) (hr : r.client = c) (hb : total Reservation.bytes l + r.bytes < usizeSize)
    (ha : total one l + 1 < usizeSize) :
    Client.Exact (r :: l) c
      (if r.oversized then
        { client with
          bytes := wrappingAdd client.bytes r.bytes
          allocations := wrappingAdd client.allocations 1
          oversizedBytes := wrappingAdd client.oversizedBytes r.bytes
          oversizedAllocations := wrappingAdd client.oversizedAllocations 1 }
      else
        { client with
          bytes := wrappingAdd client.bytes r.bytes
          allocations := wrappingAdd client.allocations 1 }) := by
  have h1 := total_ofClient_le c Reservation.bytes l
  have h2 := total_ofClient_le c one l
  have h3 := total_ofClient_split c Reservation.bytes l
  have h4 := total_ofClient_split c one l
  have hbytes : wrappingAdd client.bytes r.bytes = total (ofClient c Reservation.bytes) (r :: l) := by
    rw [total_cons, ofClient_self _ hr, h.bytes, wrappingAdd_eq (by omega), Nat.add_comm]
  have hallocs : wrappingAdd client.allocations 1 = total (ofClient c one) (r :: l) := by
    rw [total_cons, ofClient_self _ hr, h.allocations, wrappingAdd_eq (by omega), Nat.add_comm]
    rfl
  cases ho : r.oversized with
  | true =>
    rw [if_pos rfl]
    refine ⟨hbytes, hallocs, ?_, ?_⟩
    · rw [total_cons, ofClient_self _ hr, oversizedOnly, if_pos ho]
      exact (wrappingAdd_eq (by rw [h.oversizedBytes]; omega)).trans (by rw [h.oversizedBytes, Nat.add_comm])
    · rw [total_cons, ofClient_self _ hr, oversizedOnly, if_pos ho]
      exact (wrappingAdd_eq (by rw [h.oversizedAllocations]; omega)).trans
        (by rw [h.oversizedAllocations, Nat.add_comm]; rfl)
  | false =>
    rw [if_neg Bool.false_ne_true]
    refine ⟨hbytes, hallocs, ?_, ?_⟩ <;> rw [total_cons, ofClient_self _ hr, oversizedOnly, ho]
    · exact h.oversizedBytes.trans (Nat.zero_add _).symm
    · exact h.oversizedAllocations.trans (Nat.zero_add _).symm

theorem Client.Exact.cons_of_ne (h : client.Exact l c) (hr : r.client ≠ c) : client.Exact (r :: l) c := by
  refine ⟨?_, ?_, ?_, ?_⟩ <;> rw [total_cons, ofClient_of_ne _ hr, Nat.zero_add]
  · exact h.bytes
  · exact h.allocations
  · exact h.oversizedBytes
  · exact h.oversizedAllocations

omit [DecidableEq κ] in
theorem Replaced.mono (credit : Option (Reservation κ)) (h : Replaced s c r) :
    r.client = c ∧ r.id ∈ credit.elim s.replaced fun r => r.id :: s.replaced := by
  refine ⟨h.1, ?_⟩
  cases credit with
  | none => exact h.2
  | some _ => exact List.mem_cons_of_mem _ h.2

/-- An admitted charge stays within the allowance of every client. -/
theorem withinAllowance_charge {f : Reservation κ → Nat} {M : Nat} (hr : r.client = wake) (hc : ∀ y ∈ credit, y ∈ s.live ∧ y.client = wake)
    (h : ∀ c, WithinAllowance (ofClient c f) M (Replaced s c) s.live)
    (hfit : f r = 0 ∨ f r + (total (ofClient wake f) s.live - credit.elim 0 (ofClient wake f)) ≤ M) (c : κ) :
    WithinAllowance (ofClient c f) M
      (fun y => y.client = c ∧ y.id ∈ credit.elim s.replaced fun y => y.id :: s.replaced) (r :: s.live) := by
  have hmono := (h c).mono fun _ _ hy => Replaced.mono credit hy
  by_cases hcw : c = wake
  · subst hcw
    rcases hfit with hfit | hfit
    · exact hmono.cons_of_zero (by rw [ofClient_self _ hr, hfit])
    · refine WithinAllowance.cons_of_admitted (fun y hy => ⟨(hc y hy).1, (hc y hy).2, ?_⟩) (by rwa [ofClient_self _ hr])
      cases Option.mem_def.1 hy
      exact List.mem_cons_self
  · exact hmono.cons_of_zero (ofClient_of_ne _ fun hx => hcw (hx.symm.trans hr))

theorem Inv.charge (h : Inv b s) (hc : ∀ r ∈ credit, r ∈ s.live ∧ r.client = wake) (hf : Fits b s bytes wake credit) :
    Inv b (charge b s bytes wake credit).2 := by
  have hbytes := h.bytes_eq
  have hallocs := h.allocations_eq
  have hltb := b.maxBytes_lt
  have hlta := b.maxAllocations_lt
  have hfb := hf.global_bytes
  have hfa := hf.global_allocations
  have hwb : wrappingAdd s.bytes bytes = s.bytes + bytes := wrappingAdd_eq (by omega)
  have hwa : wrappingAdd s.allocations 1 = s.allocations + 1 := wrappingAdd_eq (by omega)
  refine ⟨?_, ?_, ?_, ?_, fun c => ?_, fun r hr => ?_, ?_, ?_, ?_, fun id => ?_⟩
  · simp only [RenderBudget.charge, total_cons]
    omega
  · simp only [RenderBudget.charge, total_cons]
    rw [hwa, hallocs, Nat.add_comm]
    rfl
  · exact hwb.trans_le (by omega)
  · exact hwa.trans_le (by omega)
  · by_cases hcw : c = wake
    · subst hcw
      simp only [RenderBudget.charge, Function.update_self]
      exact (h.clients c).charge rfl (by dsimp only; omega) (by omega)
    · simp only [RenderBudget.charge, Function.update_of_ne hcw]
      exact (h.clients c).cons_of_ne fun hx => hcw hx.symm
  · rcases List.mem_cons.1 hr with rfl | hr
    · rfl
    · exact h.sized r hr
  · refine withinAllowance_charge rfl hc h.normal ?_
    by_cases ho : b.maxClientBytes < bytes
    · exact Or.inl (by simp [normalOnly, ho])
    · exact Or.inr (by simpa [normalOnly, ho] using hf.normal (by omega))
  · exact withinAllowance_charge rfl hc h.local_allocations (Or.inr hf.local_allocations)
  · refine withinAllowance_charge rfl hc h.oversized ?_
    by_cases ho : b.maxClientBytes < bytes
    · exact Or.inr (by simpa [oversizedOnly, one, ho] using hf.oversized ho)
    · exact Or.inl (by simp [oversizedOnly, ho])
  · by_cases hid : id = s.nextId
    · subst hid
      simpa [RenderBudget.charge] using Cell.exact_new
    · simpa [RenderBudget.charge, Function.update_of_ne hid] using h.cells id

/-! ## Release -/

/-- The counters of the client a reservation is returned to. -/
theorem Client.Exact.drop (h : client.Exact l c) (hr : r.client = c) (hin : r ∈ l) : Client.Exact (l.erase r) c
      (if r.oversized then
        { client with
          bytes := wrappingSub client.bytes r.bytes
          allocations := wrappingSub client.allocations 1
          oversizedBytes := wrappingSub client.oversizedBytes r.bytes
          oversizedAllocations := wrappingSub client.oversizedAllocations 1 }
      else
        { client with
          bytes := wrappingSub client.bytes r.bytes
          allocations := wrappingSub client.allocations 1 }) := by
  have hsub : ∀ (f : Reservation κ → Nat) (n : Nat), n = total (ofClient c f) l →
      wrappingSub n (f r) = total (ofClient c f) (l.erase r) := by
    rintro f n rfl
    have he := total_erase (ofClient c f) hin
    rw [ofClient_self f hr] at he
    rw [wrappingSub_eq (by omega)]
    omega
  have hbytes := hsub Reservation.bytes _ h.bytes
  have hallocs : wrappingSub client.allocations 1 = _ := hsub one _ h.allocations
  cases ho : r.oversized with
  | true =>
    rw [if_pos rfl]
    have e1 : oversizedOnly Reservation.bytes r = r.bytes := if_pos ho
    have e2 : oversizedOnly one r = 1 := if_pos ho
    have hob := hsub (oversizedOnly Reservation.bytes) _ h.oversizedBytes
    have hoa := hsub (oversizedOnly one) _ h.oversizedAllocations
    rw [e1] at hob
    rw [e2] at hoa
    exact ⟨hbytes, hallocs, hob, hoa⟩
  | false =>
    rw [if_neg Bool.false_ne_true]
    have hzero : ∀ f : Reservation κ → Nat, total (ofClient c (oversizedOnly f)) (l.erase r) =
        total (ofClient c (oversizedOnly f)) l := by
      intro f
      rw [total_erase _ hin, ofClient_self _ hr, oversizedOnly, ho]
      exact (Nat.zero_add _).symm
    exact ⟨hbytes, hallocs, h.oversizedBytes.trans (hzero _).symm, h.oversizedAllocations.trans (hzero _).symm⟩

theorem Client.Exact.erase_of_ne (h : client.Exact l c) (hr : r.client ≠ c) (hin : r ∈ l) : client.Exact (l.erase r) c := by
  have hsame : ∀ f : Reservation κ → Nat, total (ofClient c f) l = total (ofClient c f) (l.erase r) := fun f => by
    rw [total_erase _ hin, ofClient_of_ne _ hr, Nat.zero_add]
  exact ⟨h.bytes.trans (hsame _), h.allocations.trans (hsame _), h.oversizedBytes.trans (hsame _),
    h.oversizedAllocations.trans (hsame _)⟩

theorem Inv.drop (h : Inv b s) (hr : r ∈ s.live) : Inv b (drop s r) := by
  have hbytes := h.bytes_eq
  have hallocs := h.allocations_eq
  have hltb := b.maxBytes_lt
  have hlta := b.maxAllocations_lt
  have hleb := h.bytes_le
  have hlea := h.allocations_le
  have heb := total_erase Reservation.bytes hr
  have hea := total_erase one hr
  have hwb : wrappingSub s.bytes r.bytes = s.bytes - r.bytes := wrappingSub_eq (by omega)
  have hwa : wrappingSub s.allocations 1 = s.allocations - 1 := wrappingSub_eq (by simp only [one] at hea; omega)
  refine ⟨hwb.trans (by simp only [RenderBudget.drop]; omega), hwa.trans ?_, hwb.trans_le (by omega),
    hwa.trans_le (by omega), fun c => ?_, fun y hy => h.sized y (List.mem_of_mem_erase hy),
    fun c => (h.normal c).erase hr, fun c => (h.local_allocations c).erase hr, fun c =>
      (h.oversized c).erase hr, h.cells⟩
  · simp only [one] at hea
    simp only [RenderBudget.drop]
    omega
  by_cases hcr : c = r.client
  · subst hcr
    simp only [RenderBudget.drop, Function.update_self]
    exact (h.clients r.client).drop rfl hr
  · simp only [RenderBudget.drop, Function.update_of_ne hcr]
    exact (h.clients c).erase_of_ne (fun hx => hcr hx.symm) hr

/-! ## Every operation keeps the accounts -/

theorem tryReserveReplacing_cases (b : TextureBudget) (s : State κ) (bytes : Nat) (wake : κ)
    (idle : Option (Reservation κ)) :
    tryReserveReplacing b s bytes wake idle = (.error .tooLarge, s) ∨
    tryReserveReplacing b s bytes wake idle = (.error .pressure, wait s wake) ∨
    0 < bytes ∧ underPressure b s bytes wake (creditOf b s wake idle) = false ∧
      tryReserveReplacing b s bytes wake idle =
        (.ok (charge b s bytes wake (creditOf b s wake idle)).1,
          (charge b s bytes wake (creditOf b s wake idle)).2) := by
  unfold tryReserveReplacing
  by_cases hsize : (bytes == 0 || b.maxBytes < bytes) = true
  · exact Or.inl (if_pos hsize)
  · rw [if_neg hsize]
    simp only [Bool.or_eq_true, beq_iff_eq, decide_eq_true_eq, not_or] at hsize
    cases hp : underPressure b s bytes wake (creditOf b s wake idle) with
    | true => exact Or.inr (Or.inl (by simp [hp]))
    | false => exact Or.inr (Or.inr ⟨Nat.pos_of_ne_zero hsize.1, rfl, by simp [hp]⟩)

theorem Inv.tryReserveReplacing (h : Inv b s) (bytes : Nat) (wake : κ)
    (hidle : ∀ r ∈ idle, r.budget = b.id → r ∈ s.live) : Inv b (tryReserveReplacing b s bytes wake idle).2 := by
  rcases tryReserveReplacing_cases b s bytes wake idle with he | he | ⟨hpos, hp, he⟩ <;> rw [he]
  · exact h
  · exact h.frame (sameCharges_wait s wake) (wait_cells s wake ▸ h.cells)
  · exact h.charge (creditOf_mem hidle) (h.fits hpos (creditOf_mem hidle) hp)

theorem Inv.step (h : Inv b s) {a : Event κ} (hs : step b s a = some s') : Inv b s' := by
  cases a with
  | reserve bytes wake idle =>
    simp only [RenderBudget.step, Option.ite_none_right_eq_some, Option.some.injEq] at hs
    exact hs.2 ▸ h.tryReserveReplacing bytes wake hs.1
  | drop r =>
    simp only [RenderBudget.step, Option.ite_none_right_eq_some, Option.some.injEq] at hs
    exact hs.2 ▸ h.drop hs.1
  | beginRead r =>
    simp only [RenderBudget.step, Option.ite_none_right_eq_some, Option.some.injEq] at hs
    exact hs.2 ▸ h.setCell r.id (h.cells r.id).beginRead
  | endRead r =>
    simp only [RenderBudget.step, Option.ite_none_right_eq_some, Option.some.injEq] at hs
    exact hs.2 ▸ h.setCell r.id (h.cells r.id).endRead
  | setRetired r retired =>
    simp only [RenderBudget.step, Option.ite_none_right_eq_some, Option.some.injEq] at hs
    exact hs.2 ▸ h.setCell r.id (h.cells r.id)
  | defer wake =>
    cases hs
    exact h.frame (sameCharges_wait s wake) (wait_cells s wake ▸ h.cells)
  | wakeWaiters =>
    cases hs
    exact h.frame ⟨rfl, rfl, rfl, rfl, fun _ => rfl⟩ h.cells
  | notify =>
    simp only [RenderBudget.step] at hs
    cases hn : s.notifying with
    | nil => simp [hn] at hs
    | cons wake rest =>
      simp only [hn, Option.some.injEq] at hs
      have hrest : Inv b { s with notifying := rest } := h.frame ⟨rfl, rfl, rfl, rfl, fun _ => rfl⟩ h.cells
      exact hs ▸ hrest.frame (sameCharges_notify _ wake) (by rw [notify_cells]; exact hrest.cells)

theorem inv_reachable (h : (system κ b).Reachable s) : Inv b s :=
  System.Reachable.invariant (I := Inv b) Inv.new (fun _ _ _ hi hs => Inv.step hi hs) h

/-! ## The guarantees of the budget -/

theorem tryReserveReplacing_error {e : BudgetError}
    (h : tryReserveReplacing b s bytes wake idle = (.error e, s')) : SameCharges s s' := by
  rcases tryReserveReplacing_cases b s bytes wake idle with he | he | ⟨-, -, he⟩ <;> rw [he] at h <;> cases h
  · exact SameCharges.refl s
  · exact sameCharges_wait s wake

/-- What the budget promises in a state. -/
structure Guarantees (b : TextureBudget) (s : State κ) : Prop where
  /-- The global counters are the sums over the live reservations, within the maxima. -/
  bytes_eq : s.bytes = (s.live.map fun r => r.bytes).sum
  allocations_eq : s.allocations = s.live.length
  bytes_le : s.bytes ≤ b.maxBytes
  allocations_le : s.allocations ≤ b.maxAllocations
  /-- The counters of a client are the sums over its live reservations. -/
  client_bytes : ∀ c, (s.clients c).bytes = (s.live.map fun r => if r.client = c then r.bytes else 0).sum
  client_allocations : ∀ c, (s.clients c).allocations = (s.live.map fun r => if r.client = c then 1 else 0).sum
  client_oversizedBytes : ∀ c, (s.clients c).oversizedBytes =
    (s.live.map fun r => if r.client = c then (if r.oversized then r.bytes else 0) else 0).sum
  client_oversizedAllocations : ∀ c, (s.clients c).oversizedAllocations =
    (s.live.map fun r => if r.client = c then (if r.oversized then 1 else 0) else 0).sum
  /-- No drop underflows a counter. -/
  no_underflow : ∀ r ∈ s.live, r.bytes ≤ s.bytes ∧ 1 ≤ s.allocations ∧ r.bytes ≤ (s.clients r.client).bytes ∧
    1 ≤ (s.clients r.client).allocations ∧
    (r.oversized = true → r.bytes ≤ (s.clients r.client).oversizedBytes ∧
      1 ≤ (s.clients r.client).oversizedAllocations)
  /-- The readers of a reservation are its reads begun and not ended, when no read is ended before it begins. -/
  readers_eq : ∀ id, (s.cells id).ended ≤ (s.cells id).begun → (s.cells id).begun < usizeSize →
    (s.cells id).readers = (s.cells id).begun - (s.cells id).ended
  refused : ∀ bytes wake idle e s', tryReserveReplacing b s bytes wake idle = (.error e, s') → SameCharges s s'
  /-- A client's share: its maximum, and while a replaced reservation is still live, that one on top. -/
  normal_bytes : ∀ c, (s.clients c).bytes - (s.clients c).oversizedBytes ≤ b.maxClientBytes ∨
    ∃ r ∈ s.live, Replaced s c r ∧
      (s.clients c).bytes - (s.clients c).oversizedBytes ≤ b.maxClientBytes + normalOnly Reservation.bytes r
  normal_bytes_le : ∀ c, (s.clients c).bytes - (s.clients c).oversizedBytes ≤ 2 * b.maxClientBytes
  allocations_le_client : ∀ c, (s.clients c).allocations ≤ b.maxClientAllocations ∨
    (∃ r ∈ s.live, Replaced s c r) ∧ (s.clients c).allocations ≤ b.maxClientAllocations + 1
  oversized_le : ∀ c, (s.clients c).oversizedAllocations ≤ 1 ∨
    (∃ r ∈ s.live, Replaced s c r ∧ r.oversized = true) ∧ (s.clients c).oversizedAllocations ≤ 2

omit [DecidableEq κ] in
theorem total_one (l : List (Reservation κ)) : total one l = l.length := by
  induction l with
  | nil => rfl
  | cons r l ih => rw [total_cons, ih, List.length_cons, one, Nat.add_comm]

/-- **The accounts of the texture budget after any sequence of operations of any clients.** -/
theorem textureBudget_guarantees (h : (system κ b).Reachable s) : Guarantees b s := by
  have hi := inv_reachable h
  have hnormal : ∀ c, (s.clients c).bytes - (s.clients c).oversizedBytes =
      total (ofClient c (normalOnly Reservation.bytes)) s.live := fun c => by
    rw [(hi.clients c).bytes, (hi.clients c).oversizedBytes, total_ofClient_split, Nat.add_sub_cancel]
  refine ⟨hi.bytes_eq, hi.allocations_eq.trans (total_one _), hi.bytes_le, hi.allocations_le,
    fun c => (hi.clients c).bytes, fun c => (hi.clients c).allocations, fun c => (hi.clients c).oversizedBytes,
    fun c => (hi.clients c).oversizedAllocations, fun r hr => ?_, fun id hle hlt => ?_,
    fun _ _ _ _ _ => tryReserveReplacing_error, fun c => ?_, fun c => ?_, fun c => ?_, fun c => ?_⟩
  · have hcl := hi.clients r.client
    have hmem : ∀ f : Reservation κ → Nat, f r ≤ total (ofClient r.client f) s.live := fun f =>
      (ofClient_self f rfl).symm.trans_le (charge_le_total _ hr)
    refine ⟨hi.bytes_eq ▸ charge_le_total Reservation.bytes hr, hi.allocations_eq ▸ charge_le_total one hr,
      hcl.bytes ▸ hmem _, hcl.allocations ▸ hmem one, fun ho => ⟨?_, ?_⟩⟩
    · have := hmem (oversizedOnly Reservation.bytes)
      rw [oversizedOnly, if_pos ho] at this
      exact hcl.oversizedBytes ▸ this
    · have := hmem (oversizedOnly one)
      rw [oversizedOnly, if_pos ho] at this
      exact hcl.oversizedAllocations ▸ this
  · obtain ⟨hr, he⟩ := hi.cells id
    unfold usizeSize at *
    omega
  · rw [hnormal]
    rcases hi.normal c with hl | ⟨r, hr, hrep, hl⟩
    · exact Or.inl hl
    · exact Or.inr ⟨r, hr, hrep, hl.trans (Nat.add_le_add_left (ofClient_le c _ r) _)⟩
  · rw [hnormal, Nat.two_mul]
    refine (hi.normal c).le fun r hr => (ofClient_le c _ r).trans ?_
    have hs := hi.sized r hr
    unfold normalOnly
    split
    · exact Nat.zero_le _
    · simp_all
  · rw [(hi.clients c).allocations]
    rcases hi.local_allocations c with hl | ⟨r, hr, hrep, hl⟩
    · exact Or.inl hl
    · exact Or.inr ⟨⟨r, hr, hrep⟩, hl.trans (Nat.add_le_add_left (ofClient_le c one r) _)⟩
  · rw [(hi.clients c).oversizedAllocations]
    rcases hi.oversized c with hl | ⟨r, hr, hrep, hl⟩
    · exact Or.inl hl
    · cases ho : r.oversized with
      | true => exact Or.inr ⟨⟨r, hr, hrep, ho⟩, hl.trans (Nat.add_le_add_left
          ((ofClient_le c _ r).trans (oversizedOnly_le one r)) 1)⟩
      | false =>
        refine Or.inl (hl.trans_eq ?_)
        rw [ofClient_self _ hrep.1, oversizedOnly, ho]
        rfl

/-- A client at its share replaces its idle texture: both are charged until the replaced one is dropped. -/
theorem textureBudget_guarantees_replacing : ∃ s : State Nat, (system Nat shared).Reachable s ∧ Guarantees shared s ∧
    s.bytes = 128 * 1024 * 1024 ∧ (s.clients 0).bytes = 128 * 1024 * 1024 := by
  have hrun : ((system Nat shared).run (system Nat shared).init
      [.reserve (64 * 1024 * 1024) 0 none, .reserve 1 0 none,
        .reserve (64 * 1024 * 1024) 0 (some ⟨0, 0, 0, 64 * 1024 * 1024, false⟩)]).any
      (fun s => s.bytes = 128 * 1024 * 1024 ∧ (s.clients 0).bytes = 128 * 1024 * 1024) = true := by decide
  obtain ⟨s, h, hp⟩ := System.exists_reachable hrun
  exact ⟨s, h, textureBudget_guarantees h, of_decide_eq_true hp⟩

end CocoaWay.RenderBudget
