import CocoaWay.Control.Selectors
import CocoaWay.Lib.System
import CocoaWay.Lib.Table

/-!
# Profile activity

* `reserveIdentity`, `identityReservedByOther`, `releaseIdentity` : the registry of runtime identities, under the
  canonical runtime;
* `begin`, `dropActivity`, `inactive` : the registry of operations, a count for each profile;
* `State`, `system` : both registries with the live reservations and leases of all threads. A registry is read and
  written under its lock, one step at a time; `while_inactive` keeps the lock of the operations until its operation
  returns;
* `Registered` : the registries say exactly what is live; `activity_guarantees` : what this means.
-/

namespace CocoaWay.Activity
open Lib Launch Control

/-! ## Runtime identities -/

/-- `RuntimeReservation`: the canonical runtime and the name, and who holds them. -/
structure RuntimeReservation where
  key : String × String
  owner : ProfileId × Nat
  deriving DecidableEq

abbrev Identities := Table (String × String) (ProfileId × Nat)

def reserveIdentity (identities : Identities) (id : ProfileId) (generation : Nat) (runtime name : String) :
    Except String (Identities × RuntimeReservation) :=
  if !id.isSaved then .error "an unsaved profile cannot reserve a runtime identity"
  else
    let key := (runtimeKey runtime, name)
    if (identities.get key).isSome then
      .error ("Container identity '" ++ name ++ "' is reserved by another active or pending instance. " ++
        "Wait for cleanup or choose a distinct name.")
    else .ok (identities.set key (id, generation), { key := key, owner := (id, generation) })

def identityReservedByOther (identities : Identities) (runtime name : String) (replacing : Option ProfileId) : Bool :=
  (identities.get (runtimeKey runtime, name)).any fun owner => replacing ≠ some owner.1

/-- `Drop for RuntimeReservation`. -/
def releaseIdentity (identities : Identities) (r : RuntimeReservation) : Identities :=
  if identities.get r.key = some r.owner then identities.remove r.key else identities

/-! ## Operations -/

abbrev Operations := Table ProfileId Nat

/-- `ProfileActivity::begin`, for a saved profile. -/
def begin (operations : Operations) (id : ProfileId) : Operations :=
  operations.set id ((operations.get id).getD 0 + 1)

/-- `Drop for ProfileActivity`. -/
def dropActivity (operations : Operations) (id : ProfileId) : Operations :=
  match operations.get id with
  | some count => if count - 1 = 0 then operations.remove id else operations.set id (count - 1)
  | none => operations

/-- `while_inactive` runs its operation. -/
def inactive (operations : Operations) (id : ProfileId) : Bool := (operations.get id).getD 0 = 0

/-! ## All threads -/

structure State where
  identities : Identities
  operations : Operations
  /-- The live reservations. -/
  reservations : List RuntimeReservation
  /-- The profiles of the live leases. -/
  leases : List ProfileId
  /-- The profile whose `while_inactive` operation runs, with the lock of the operations held. -/
  operating : Option ProfileId

inductive Event
  | reserve (id : ProfileId) (generation : Nat) (runtime name : String)
  | dropReservation (r : RuntimeReservation)
  | begin (id : ProfileId)
  | dropLease (id : ProfileId)
  | whileInactive (id : ProfileId)
  | operationReturns

def step (s : State) : Event → Option State
  | .reserve id generation runtime name =>
    match reserveIdentity s.identities id generation runtime name with
    | .error _ => some s
    | .ok (identities, r) => some { s with identities := identities, reservations := r :: s.reservations }
  | .dropReservation r =>
    if r ∈ s.reservations then
      some { s with identities := releaseIdentity s.identities r, reservations := s.reservations.erase r }
    else none
  | .begin id =>
    -- an unsaved profile panics before the lock
    if !id.isSaved then some s
    else if s.operating.isSome then none
    else some { s with operations := Activity.begin s.operations id, leases := id :: s.leases }
  | .dropLease id =>
    if s.operating.isSome || id ∉ s.leases then none
    else some { s with operations := dropActivity s.operations id, leases := s.leases.erase id }
  | .whileInactive id =>
    if s.operating.isSome then none
    else some { s with operating := if inactive s.operations id then some id else none }
  | .operationReturns => if s.operating.isSome then some { s with operating := none } else none

def system : System State Event where
  init := { identities := ∅, operations := ∅, reservations := [], leases := [], operating := none }
  step := step

/-! ## The registries and what is live -/

/-- The registries say exactly what is live. -/
structure Registered (s : State) : Prop where
  keys : (s.reservations.map RuntimeReservation.key).Nodup
  identities : ∀ key owner, s.identities.get key = some owner ↔ (⟨key, owner⟩ : RuntimeReservation) ∈ s.reservations
  operations : ∀ id, (s.operations.get id).getD 0 = s.leases.count id
  operating : ∀ id, s.operating = some id → s.leases.count id = 0

variable {r : RuntimeReservation} {s : State}

theorem reserve_ok {identities identities' : Identities} {id : ProfileId} {generation : Nat} {runtime name : String} (h : reserveIdentity identities id generation runtime name = .ok (identities', r)) :
    r = ⟨(runtimeKey runtime, name), (id, generation)⟩ ∧ identities.get r.key = none ∧
      identities' = identities.set r.key r.owner := by
  unfold reserveIdentity at h
  split at h
  · cases h
  · dsimp only at h
    split at h
    · cases h
    · next hfree =>
      rw [Except.ok.injEq, Prod.mk.injEq] at h
      obtain ⟨rfl, rfl⟩ := h
      exact ⟨rfl, by simpa using hfree, rfl⟩

theorem Registered.get_none (h : Registered s) {key : String × String} :
    s.identities.get key = none ↔ key ∉ s.reservations.map RuntimeReservation.key := by
  rw [List.mem_map]
  constructor
  · rintro hn ⟨r, hr, rfl⟩
    have hg := (h.identities r.key r.owner).2 hr
    rw [hn] at hg
    cases hg
  · intro hn
    cases hg : s.identities.get key with
    | none => rfl
    | some owner => exact absurd ⟨_, (h.identities key owner).1 hg, rfl⟩ hn

theorem Registered.reserve (h : Registered s) {identities : Identities} {id : ProfileId} {generation : Nat}
    {runtime name : String}
    (hr : reserveIdentity s.identities id generation runtime name = .ok (identities, r)) :
    Registered { s with identities := identities, reservations := r :: s.reservations } := by
  obtain ⟨-, hfree, rfl⟩ := reserve_ok hr
  have hkey := h.get_none.1 hfree
  refine ⟨List.nodup_cons.2 ⟨hkey, h.keys⟩, fun key owner => ?_, h.operations, h.operating⟩
  show (s.identities.set r.key r.owner).get key = some owner ↔ _ ∈ r :: s.reservations
  rw [Table.get_set, List.mem_cons]
  by_cases hk : key = r.key
  · subst hk
    rw [if_pos rfl, Option.some.injEq]
    constructor
    · rintro rfl
      exact Or.inl rfl
    · rintro (he | hm)
      · exact (congrArg RuntimeReservation.owner he).symm
      · exact absurd (List.mem_map_of_mem hm) hkey
  · rw [if_neg hk, h.identities]
    constructor
    · exact Or.inr
    · rintro (he | hm)
      · exact absurd (congrArg RuntimeReservation.key he) hk
      · exact hm

theorem Registered.release (h : Registered s) (hr : r ∈ s.reservations) :
    releaseIdentity s.identities r = s.identities.remove r.key :=
  if_pos ((h.identities r.key r.owner).2 hr)

theorem Registered.dropReservation (h : Registered s) (hr : r ∈ s.reservations) : Registered { s with
      identities := releaseIdentity s.identities r
      reservations := s.reservations.erase r } := by
  have hperm : (s.reservations.map RuntimeReservation.key).Perm
      (r.key :: (s.reservations.erase r).map RuntimeReservation.key) :=
    (List.perm_cons_erase hr).map RuntimeReservation.key
  have hnodup := (hperm.nodup_iff.1 h.keys)
  rw [List.nodup_cons] at hnodup
  refine ⟨hnodup.2, fun key owner => ?_, h.operations, h.operating⟩
  rw [h.release hr]
  show (s.identities.remove r.key).get key = some owner ↔ _ ∈ s.reservations.erase r
  rw [Table.get_remove]
  by_cases hk : key = r.key
  · subst hk
    rw [if_pos rfl]
    constructor
    · exact nofun
    · intro hm
      exact absurd (List.mem_map_of_mem hm) hnodup.1
  · rw [if_neg hk, h.identities]
    have hne : (⟨key, owner⟩ : RuntimeReservation) ≠ r := fun he => hk (congrArg RuntimeReservation.key he)
    exact (List.mem_erase_of_ne hne).symm

theorem get_begin (operations : Operations) (id id' : ProfileId) :
    ((begin operations id).get id').getD 0 = (operations.get id').getD 0 + if id' = id then 1 else 0 := by
  unfold begin
  rw [Table.get_set]
  by_cases h : id' = id
  · subst h
    rw [if_pos rfl, if_pos rfl, Option.getD_some]
  · rw [if_neg h, if_neg h, Nat.add_zero]

theorem get_dropActivity (operations : Operations) (id id' : ProfileId) :
    ((dropActivity operations id).get id').getD 0 = (operations.get id').getD 0 - if id' = id then 1 else 0 := by
  unfold dropActivity
  cases hg : operations.get id with
  | none =>
    by_cases h : id' = id
    · subst h
      rw [hg, if_pos rfl]
      rfl
    · rw [if_neg h, Nat.sub_zero]
  | some count =>
    dsimp only
    by_cases h : id' = id
    · subst h
      rw [if_pos rfl, hg, Option.getD_some]
      split
      · next hz =>
        rw [Table.get_remove_self, Option.getD_none]
        exact hz.symm
      · rw [Table.get_set_self, Option.getD_some]
    · rw [if_neg h, Nat.sub_zero]
      split
      · rw [Table.get_remove_of_ne _ h]
      · rw [Table.get_set_of_ne _ _ h]

theorem Registered.step {s s' : State} {e : Event} (h : Registered s) (hst : system.step s e = some s') :
    Registered s' := by
  change Activity.step s e = some s' at hst
  cases e with
  | reserve id generation runtime name =>
    simp only [Activity.step] at hst
    split at hst
    · obtain rfl := Option.some.inj hst
      exact h
    · next hr =>
      obtain rfl := Option.some.inj hst
      exact h.reserve hr
  | dropReservation r =>
    simp only [Activity.step] at hst
    split at hst
    · next hr =>
      obtain rfl := Option.some.inj hst
      exact h.dropReservation hr
    · cases hst
  | begin id =>
    simp only [Activity.step] at hst
    split at hst
    · obtain rfl := Option.some.inj hst
      exact h
    · split at hst
      · cases hst
      · next hidle =>
        obtain rfl := Option.some.inj hst
        refine ⟨h.keys, h.identities, fun id' => ?_, fun id' ho => ?_⟩
        · show ((begin s.operations id).get id').getD 0 = (id :: s.leases).count id'
          rw [get_begin, h.operations, List.count_cons]
          by_cases hid : id' = id
          · rw [if_pos hid, if_pos (by simp [hid])]
          · rw [if_neg hid, if_neg (by simpa using Ne.symm hid)]
        · have ho' : s.operating = some id' := ho
          rw [ho'] at hidle
          exact absurd rfl hidle
  | dropLease id =>
    simp only [Activity.step] at hst
    split at hst
    · cases hst
    · next hc =>
      obtain rfl := Option.some.inj hst
      rw [Bool.or_eq_true, not_or] at hc
      refine ⟨h.keys, h.identities, fun id' => ?_, fun id' ho => ?_⟩
      · show ((dropActivity s.operations id).get id').getD 0 = (s.leases.erase id).count id'
        rw [get_dropActivity, h.operations, List.count_erase]
        by_cases hid : id' = id
        · rw [if_pos hid, if_pos (by simp [hid])]
        · rw [if_neg hid, if_neg (by simpa using Ne.symm hid)]
      · have ho' : s.operating = some id' := ho
        rw [ho'] at hc
        exact absurd rfl hc.1
  | whileInactive id =>
    simp only [Activity.step] at hst
    split at hst
    · cases hst
    · obtain rfl := Option.some.inj hst
      refine ⟨h.keys, h.identities, h.operations, fun id' ho => ?_⟩
      have ho' : (if inactive s.operations id then some id else none) = some id' := ho
      split at ho'
      · next hz =>
        obtain rfl := Option.some.inj ho'
        rw [← h.operations]
        simpa [inactive] using hz
      · cases ho'
  | operationReturns =>
    simp only [Activity.step] at hst
    split at hst
    · obtain rfl := Option.some.inj hst
      exact ⟨h.keys, h.identities, h.operations, nofun⟩
    · cases hst

theorem registered (h : system.Reachable s) : Registered s := by
  refine System.Reachable.invariant (I := Registered) ?_ (fun s e s' hi hst => hi.step hst) h
  refine ⟨List.nodup_nil, fun key owner => ?_, fun id => ?_, nofun⟩
  · simp [system]
  · simp [system]

/-! ## The guarantees -/

structure Guarantees (s : State) : Prop where
  /-- At most one live reservation for each canonical identity. -/
  reserved : (s.reservations.map RuntimeReservation.key).Nodup
  /-- A request is refused exactly for an unsaved profile or an identity that is live under any alias of its runtime; an
  accepted one is live for the canonical identity. -/
  reserve : ∀ id generation runtime name,
    match reserveIdentity s.identities id generation runtime name with
    | .error _ => id.isSaved = false ∨ (runtimeKey runtime, name) ∈ s.reservations.map RuntimeReservation.key
    | .ok (_, r) => id.isSaved = true ∧ (runtimeKey runtime, name) ∉ s.reservations.map RuntimeReservation.key ∧
        r = ⟨(runtimeKey runtime, name), (id, generation)⟩
  /-- What other profiles are told of an identity. -/
  reservedByOther : ∀ runtime name replacing, identityReservedByOther s.identities runtime name replacing = true ↔
    ∃ r ∈ s.reservations, r.key = (runtimeKey runtime, name) ∧ replacing ≠ some r.owner.1
  /-- An identity is released only by the drop of the reservation that holds it. -/
  released : ∀ e s' key owner, system.step s e = some s' → s.identities.get key = some owner →
    s'.identities.get key = some owner ∨
      e = .dropReservation ⟨key, owner⟩ ∧ (⟨key, owner⟩ : RuntimeReservation) ∈ s.reservations ∧
        s'.identities.get key = none
  /-- The activity of a profile is the number of its live leases. -/
  activity : ∀ id, (s.operations.get id).getD 0 = s.leases.count id
  /-- `while_inactive` starts its operation exactly without live leases of the profile. -/
  starts : ∀ id, inactive s.operations id = true ↔ s.leases.count id = 0
  /-- While the operation runs there is none, and no lease of any profile begins before it returns. -/
  operating : ∀ id, s.operating = some id → s.leases.count id = 0 ∧
    ∀ id' s', id'.isSaved = true → system.step s (.begin id') ≠ some s'

theorem Registered.released {s s' : State} (h : Registered s) {e : Event} {key : String × String}
    {owner : ProfileId × Nat} (hst : system.step s e = some s') (hk : s.identities.get key = some owner) :
    s'.identities.get key = some owner ∨ e = .dropReservation ⟨key, owner⟩ ∧
      (⟨key, owner⟩ : RuntimeReservation) ∈ s.reservations ∧ s'.identities.get key = none := by
  change Activity.step s e = some s' at hst
  cases e with
  | reserve id generation runtime name =>
    simp only [Activity.step] at hst
    split at hst
    · obtain rfl := Option.some.inj hst
      exact Or.inl hk
    · next hr =>
      obtain rfl := Option.some.inj hst
      obtain ⟨-, hfree, rfl⟩ := reserve_ok hr
      left
      rw [← hk]
      refine Table.get_set_of_ne _ _ fun he => ?_
      rw [he, hfree] at hk
      cases hk
  | dropReservation r =>
    simp only [Activity.step] at hst
    split at hst
    · next hr =>
      obtain rfl := Option.some.inj hst
      show (releaseIdentity s.identities r).get key = some owner ∨ _ ∧ _ ∧
        (releaseIdentity s.identities r).get key = none
      rw [h.release hr]
      by_cases he : key = r.key
      · subst he
        have ho : some r.owner = some owner := ((h.identities r.key r.owner).2 hr).symm.trans hk
        obtain rfl := Option.some.inj ho
        exact Or.inr ⟨rfl, hr, Table.get_remove_self _ _⟩
      · left
        rw [Table.get_remove_of_ne _ he]
        exact hk
    · cases hst
  | begin id =>
    simp only [Activity.step] at hst
    split at hst
    · obtain rfl := Option.some.inj hst
      exact Or.inl hk
    · split at hst
      · cases hst
      · obtain rfl := Option.some.inj hst
        exact Or.inl hk
  | dropLease id =>
    simp only [Activity.step] at hst
    split at hst
    · cases hst
    · obtain rfl := Option.some.inj hst
      exact Or.inl hk
  | whileInactive id =>
    simp only [Activity.step] at hst
    split at hst
    · cases hst
    · obtain rfl := Option.some.inj hst
      exact Or.inl hk
  | operationReturns =>
    simp only [Activity.step] at hst
    split at hst
    · obtain rfl := Option.some.inj hst
      exact Or.inl hk
    · cases hst

/-- For every order of the calls and drops of any threads. -/
theorem activity_guarantees {s : State} (h : system.Reachable s) : Guarantees s := by
  have hr := registered h
  refine ⟨hr.keys, fun id generation runtime name => ?_, fun runtime name replacing => ?_,
    fun e s' key owner hst hk => hr.released hst hk, hr.operations, fun id => ?_, fun id ho => ?_⟩
  · unfold reserveIdentity
    cases hs : id.isSaved with
    | false => exact Or.inl rfl
    | true =>
      simp only [Bool.not_true, Bool.false_eq_true, if_false]
      cases hg : s.identities.get (runtimeKey runtime, name) with
      | none => exact ⟨trivial, hr.get_none.1 hg, rfl⟩
      | some owner => exact Or.inr (List.mem_map_of_mem ((hr.identities _ owner).1 hg))
  · unfold identityReservedByOther
    rw [Option.any_eq_true]
    constructor
    · rintro ⟨owner, hg, hne⟩
      exact ⟨_, (hr.identities _ owner).1 hg, rfl, by simpa using hne⟩
    · rintro ⟨r, hm, hk, hne⟩
      refine ⟨r.owner, ?_, by simpa using hne⟩
      rw [← hk]
      exact (hr.identities _ _).2 hm
  · rw [← hr.operations]
    simp [inactive]
  · refine ⟨hr.operating id ho, fun id' s' hsaved hst => ?_⟩
    change Activity.step s (.begin id') = some s' at hst
    simp [Activity.step, hsaved, ho] at hst

/-- A saved profile. -/
def someProfile : ProfileId := .ofByte 1

theorem activity_guarantees_busy : ∃ s, system.Reachable s ∧ s.leases = [someProfile] ∧ s.operating = none ∧
    Guarantees s := by
  have hrun : (system.run system.init [.reserve someProfile 1 "apple" "app", .begin someProfile]).any
      (fun s => s.leases = [someProfile] && s.operating.isNone) = true := by decide
  obtain ⟨s, hs, hp⟩ := System.exists_reachable hrun
  rw [Bool.and_eq_true, decide_eq_true_eq, Option.isNone_iff_eq_none] at hp
  exact ⟨s, hs, hp.1, hp.2, activity_guarantees hs⟩

end CocoaWay.Activity
