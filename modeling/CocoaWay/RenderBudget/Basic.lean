import CocoaWay.Lib.System
import Mathlib.Algebra.Ring.Nat
import Mathlib.Logic.Function.Basic

/-!
# The texture budget

Process-wide admission for texture storage.

* `TextureBudget` : the configured maxima; `Client` : the counters of one renderer's `BudgetWake`;
* `Reservation` : the immutable part of a reservation; `Cell` : its atomic flags and reader count;
* `tryReserveReplacing`, `drop`, `beginRead`, `endRead`, `setRetired`, `defer`, `notify` : the operations;
* `system` : any sequence of them. Each runs under the budget's mutex, so the sequence is the order of the lock. A
  reservation is dropped with its last reference.

All counters are `usize` and wrap.
-/

namespace CocoaWay.RenderBudget
open Lib

/-- The number of values of `usize`. -/
def usizeSize : Nat := 2 ^ 64

/-- `fetch_add`, on `usize` values. -/
def wrappingAdd (a b : Nat) : Nat := if a + b < usizeSize then a + b else a + b - usizeSize

/-- `fetch_sub`, on `usize` values. -/
def wrappingSub (a b : Nat) : Nat := if b ≤ a then a - b else a + usizeSize - b

/-- The configured maxima; they are `usize` values. -/
structure TextureBudget where
  id : Nat
  maxBytes : Nat
  maxAllocations : Nat
  maxClientBytes : Nat
  maxClientAllocations : Nat
  maxBytes_lt : maxBytes < usizeSize
  maxAllocations_lt : maxAllocations < usizeSize

/-- The budget of `shared`. -/
def shared : TextureBudget where
  id := 0
  maxBytes := 256 * 1024 * 1024
  maxAllocations := 4096
  maxClientBytes := 64 * 1024 * 1024
  maxClientAllocations := 1024
  maxBytes_lt := by decide
  maxAllocations_lt := by decide

/-- A renderer's `BudgetWake`. -/
structure Client where
  waiting : Bool
  bytes : Nat
  allocations : Nat
  oversizedBytes : Nat
  oversizedAllocations : Nat

def Client.new : Client := ⟨false, 0, 0, 0, 0⟩

variable {κ : Type*} [DecidableEq κ]

/-- What a reservation never changes. -/
structure Reservation (κ : Type*) where
  id : Nat
  budget : Nat
  client : κ
  bytes : Nat
  oversized : Bool
  deriving DecidableEq

instance : LawfulBEq (Reservation κ) := inferInstance

/-- The atomics of a reservation; `begun` and `ended` count the calls of `begin_read` and `end_read`. -/
structure Cell where
  retired : Bool
  readers : Nat
  begun : Nat
  ended : Nat

def Cell.new : Cell := ⟨false, 0, 0, 0⟩

inductive BudgetError
  | tooLarge
  | pressure
  deriving DecidableEq

structure State (κ : Type*) where
  bytes : Nat
  allocations : Nat
  waiters : List κ
  /-- The weak list of reservations. -/
  reservations : List Nat
  clients : κ → Client
  cells : Nat → Cell
  /-- The reservations some reference is left to. -/
  live : List (Reservation κ)
  nextId : Nat
  /-- The reservations that were credited as the one being replaced. -/
  replaced : List Nat
  /-- The clients whose callback is about to be called, and those it was called for. -/
  notifying : List κ
  notified : List κ

def State.setClient (s : State κ) (c : κ) (client : Client) : State κ :=
  { s with clients := Function.update s.clients c client }

def State.setCell (s : State κ) (id : Nat) (cell : Cell) : State κ :=
  { s with cells := Function.update s.cells id cell }

/-- `wait`: register the client once. -/
def wait (s : State κ) (wake : κ) : State κ :=
  if (s.clients wake).waiting then s
  else { s.setClient wake { s.clients wake with waiting := true } with waiters := s.waiters ++ [wake] }

/-! ## Admission -/

/-- The reservation `idle` counts as replaced: of this budget and client, and without readers. -/
def creditOf (b : TextureBudget) (s : State κ) (wake : κ) (idle : Option (Reservation κ)) : Option (Reservation κ) :=
  idle.filter fun r => r.budget == b.id && r.client == wake && (s.cells r.id).readers == 0

/-- The test that refuses an allocation for pressure. -/
def underPressure (b : TextureBudget) (s : State κ) (bytes : Nat) (wake : κ) (credit : Option (Reservation κ)) : Bool :=
  let client := s.clients wake
  let normalBytes := client.bytes - client.oversizedBytes -
    (credit.filter fun r => !r.oversized).elim 0 fun r => r.bytes
  let oversizedAllocations := client.oversizedAllocations - (if credit.any fun r => r.oversized then 1 else 0)
  let localAllocations := client.allocations - (if credit.isSome then 1 else 0)
  let oversized := b.maxClientBytes < bytes
  b.maxBytes - s.bytes < bytes ||
    b.maxAllocations ≤ s.allocations ||
    (oversized && oversizedAllocations != 0) ||
    (!oversized && b.maxClientBytes - normalBytes < bytes) ||
    b.maxClientAllocations ≤ localAllocations

/-- The charges of an admitted allocation. -/
def charge (b : TextureBudget) (s : State κ) (bytes : Nat) (wake : κ) (credit : Option (Reservation κ)) :
    Reservation κ × State κ :=
  let client := s.clients wake
  let oversized : Bool := b.maxClientBytes < bytes
  let client := { client with
    bytes := wrappingAdd client.bytes bytes
    allocations := wrappingAdd client.allocations 1 }
  let client := if oversized then { client with
    oversizedBytes := wrappingAdd client.oversizedBytes bytes
    oversizedAllocations := wrappingAdd client.oversizedAllocations 1 } else client
  let reservation := { id := s.nextId, budget := b.id, client := wake, bytes, oversized }
  (reservation, { s with
    bytes := wrappingAdd s.bytes bytes
    allocations := wrappingAdd s.allocations 1
    clients := Function.update s.clients wake client
    cells := Function.update s.cells s.nextId Cell.new
    -- The weak list drops the dead reservations before it grows.
    reservations := s.reservations.filter (fun id => s.live.any fun r => r.id == id) ++ [s.nextId]
    live := reservation :: s.live
    nextId := s.nextId + 1
    replaced := credit.elim s.replaced fun r => r.id :: s.replaced })

/-- `try_reserve_replacing`. -/
def tryReserveReplacing (b : TextureBudget) (s : State κ) (bytes : Nat) (wake : κ) (idle : Option (Reservation κ)) :
    Except BudgetError (Reservation κ) × State κ :=
  if bytes == 0 || b.maxBytes < bytes then (.error .tooLarge, s)
  else
    let credit := creditOf b s wake idle
    if underPressure b s bytes wake credit then (.error .pressure, wait s wake)
    else
      let (reservation, s) := charge b s bytes wake credit
      (.ok reservation, s)

/-! ## The other operations -/

/-- The last reference to a reservation goes: its charges are returned and the waiters taken out to be notified. -/
def drop (s : State κ) (r : Reservation κ) : State κ :=
  let client := s.clients r.client
  let client := { client with
    bytes := wrappingSub client.bytes r.bytes
    allocations := wrappingSub client.allocations 1 }
  let client := if r.oversized then { client with
    oversizedBytes := wrappingSub client.oversizedBytes r.bytes
    oversizedAllocations := wrappingSub client.oversizedAllocations 1 } else client
  { s with
    bytes := wrappingSub s.bytes r.bytes
    allocations := wrappingSub s.allocations 1
    clients := Function.update s.clients r.client client
    live := s.live.erase r
    waiters := []
    notifying := s.notifying ++ s.waiters }

def beginRead (s : State κ) (id : Nat) : State κ :=
  let cell := s.cells id
  s.setCell id { cell with readers := wrappingAdd cell.readers 1, begun := cell.begun + 1 }

def endRead (s : State κ) (id : Nat) : State κ :=
  let cell := s.cells id
  s.setCell id { cell with readers := wrappingSub cell.readers 1, ended := cell.ended + 1 }

def setRetired (s : State κ) (id : Nat) (retired : Bool) : State κ :=
  s.setCell id { s.cells id with retired }

/-- `wake_waiters`: take the waiters out to be notified. -/
def wakeWaiters (s : State κ) : State κ := { s with waiters := [], notifying := s.notifying ++ s.waiters }

/-- `notify_waiters` on one client, outside the lock. -/
def notify (s : State κ) (wake : κ) : State κ :=
  if (s.clients wake).waiting then
    { s.setClient wake { s.clients wake with waiting := false } with notified := wake :: s.notified }
  else s

/-! ## Sequences of operations -/

inductive Event (κ : Type*)
  | reserve (bytes : Nat) (wake : κ) (idle : Option (Reservation κ))
  | drop (r : Reservation κ)
  | beginRead (r : Reservation κ)
  | endRead (r : Reservation κ)
  | setRetired (r : Reservation κ) (retired : Bool)
  | defer (wake : κ)
  | wakeWaiters
  | notify

/-- A reservation of this budget that a caller holds is a live one; `idle` may belong to another budget. -/
def step (b : TextureBudget) (s : State κ) : Event κ → Option (State κ)
  | .reserve bytes wake idle =>
    if ∀ r ∈ idle, r.budget = b.id → r ∈ s.live then some (tryReserveReplacing b s bytes wake idle).2 else none
  | .drop r => if r ∈ s.live then some (drop s r) else none
  | .beginRead r => if r ∈ s.live then some (beginRead s r.id) else none
  | .endRead r => if r ∈ s.live then some (endRead s r.id) else none
  | .setRetired r retired => if r ∈ s.live then some (setRetired s r.id retired) else none
  | .defer wake => some (wait s wake)
  | .wakeWaiters => some (wakeWaiters s)
  | .notify =>
    match s.notifying with
    | [] => none
    | wake :: rest => some (notify { s with notifying := rest } wake)

def State.new : State κ where
  bytes := 0
  allocations := 0
  waiters := []
  reservations := []
  clients := fun _ => Client.new
  cells := fun _ => Cell.new
  live := []
  nextId := 0
  replaced := []
  notifying := []
  notified := []

/-- The budget `b` and its clients, nothing reserved. -/
def system (κ : Type*) [DecidableEq κ] (b : TextureBudget) : System (State κ) (Event κ) where
  init := State.new
  step := step b

end CocoaWay.RenderBudget
