import CocoaWay.Sessions.Plan

/-!
# Default host sockets of running sessions

* `Clash`, `socketName_eq_iff` : the names whose default sockets have the same path;
* `State`, `system` : the saved profiles, as `validate_profile_name` accepts them, the sessions that run under the
  reservations of runtime identities, and the live default sockets;
* `Isolated` : no two running sessions share a default socket, and no socket has been removed under a running session;
* `isolated_iff_apart` : launches keep the sessions isolated as long as no name clashes with that of a running
  session, and no longer.
-/

namespace CocoaWay.Sessions

open Lib
open Launch (slugify)
open Control (ProfileId hexDigit)
open Activity (Identities RuntimeReservation reserveIdentity releaseIdentity)
open ProfileConfig (ContainerSession containerName validateProfileName)

/-! ## Names of sockets -/

/-- The slugs agree in 24 characters and the hashes in 32 bits. -/
def Clash (name name' : String) : Prop :=
  (slugify name).toList.take 24 = (slugify name').toList.take 24 ∧
    stableNameHash name % 2 ^ 32 = stableNameHash name' % 2 ^ 32

instance (name name' : String) : Decidable (Clash name name') := inferInstanceAs (Decidable (_ ∧ _))

@[simp] theorem hex8_length (n : Nat) : (hex8 n).length = 8 := rfl

variable {m n : Nat}

theorem hexDigit_inj (hm : m < 16) (hn : n < 16) (h : hexDigit m = hexDigit n) : m = n := by
  rw [← Control.hexValue_hexDigit hm, h, Control.hexValue_hexDigit hn]

theorem eq_of_digits {b : Nat} {k : Nat} (hm : m < b ^ k) (hn : n < b ^ k)
    (h : ∀ i < k, m / b ^ i % b = n / b ^ i % b) : m = n := by
  induction k generalizing m n with
  | zero =>
    rw [Nat.pow_zero, Nat.lt_one_iff] at hm hn
    rw [hm, hn]
  | succ k ih =>
    have hlow : m % b = n % b := by simpa using h 0 (Nat.succ_pos k)
    have hhigh : m / b = n / b := by
      rw [Nat.pow_succ'] at hm hn
      refine ih (Nat.div_lt_of_lt_mul hm) (Nat.div_lt_of_lt_mul hn) fun i hi => ?_
      rw [Nat.div_div_eq_div_mul, Nat.div_div_eq_div_mul, ← Nat.pow_succ']
      exact h (i + 1) (Nat.succ_lt_succ hi)
    rw [← Nat.div_add_mod m b, ← Nat.div_add_mod n b, hhigh, hlow]

theorem hex8_inj (hm : m < 2 ^ 32) (hn : n < 2 ^ 32) (h : hex8 m = hex8 n) : m = n := by
  have hdigit : ∀ k, k < 8 → m / 16 ^ (7 - k) % 16 = n / 16 ^ (7 - k) % 16 := by
    intro k hk
    have hget := congrArg (fun l : List Char => l[k]?) h
    simp only [hex8, List.getElem?_map, List.getElem?_range hk, Option.map_some, Option.some.injEq] at hget
    exact hexDigit_inj (Nat.mod_lt _ (by decide)) (Nat.mod_lt _ (by decide)) hget
  have hpow : 2 ^ 32 = 16 ^ 8 := rfl
  rw [hpow] at hm hn
  refine eq_of_digits hm hn fun i hi => ?_
  have hget := hdigit (7 - i) (by omega)
  rwa [Nat.sub_sub_self (Nat.le_of_lt_succ hi)] at hget

/-- Two names have the same socket exactly when they clash. -/
theorem socketName_eq_iff (name name' : String) : socketName name = socketName name' ↔ Clash name name' := by
  unfold socketName Clash
  rw [String.ofList_inj]
  generalize ".sock".toList = ending
  constructor
  · intro h
    obtain ⟨hslug, htail⟩ := List.append_inj' (List.append_cancel_right h) (by simp)
    refine ⟨hslug, ?_⟩
    exact hex8_inj (Nat.mod_lt _ (by decide)) (Nat.mod_lt _ (by decide)) (List.cons.inj htail).2
  · rintro ⟨hslug, hhash⟩
    rw [hslug, hhash]

theorem defaultContainerSocket_eq_iff (root name name' : String) :
    defaultContainerSocket root name = defaultContainerSocket root name' ↔ Clash name name' := by
  rw [← socketName_eq_iff]
  unfold defaultContainerSocket
  constructor
  · intro h
    have hlist := congrArg String.toList h
    rw [String.toList_append, String.toList_append, String.toList_append, String.toList_append] at hlist
    exact String.toList_inj.1 (List.append_cancel_left hlist)
  · intro h
    rw [h]

/-! ## Running sessions -/

/-- A session runs until its cleanup has dropped its reservation. -/
structure Running where
  session : ContainerSession
  reservation : RuntimeReservation

structure State where
  saved : List ContainerSession
  identities : Identities
  running : List Running
  /-- The live default sockets, with the profile whose session made them. -/
  sockets : List (ProfileId × String)
  /-- The profiles whose live default socket was removed when the default socket of another was prepared. -/
  lost : List ProfileId

inductive Event
  | save (session : ContainerSession) (replacedId : Option ProfileId)
  | remove (id : ProfileId)
  | launch (id : ProfileId) (generation : Nat)
  | finish (id : ProfileId)

/-- The saved profiles with the session in the place of the one it replaces. -/
def replaced (saved : List ContainerSession) (session : ContainerSession) : Option ProfileId → List ContainerSession
  | none => saved ++ [session]
  | some id => saved.map fun existing => if existing.id = id then session else existing

/-- `prepare_host_socket`, and the socket that Waypipe makes of it. -/
def prepareHostSocket (root : String) (s : State) (session : ContainerSession) : State :=
  let path := hostSocket root session
  let default := session.socket.isNone
  { s with
    sockets := (s.sockets.filter fun e => e.2 ≠ path) ++ if default then [(session.id, path)] else []
    lost := s.lost ++ if default then (s.sockets.filter fun e => e.2 = path ∧ e.1 ≠ session.id).map Prod.fst else [] }

/-- A launch, under a reservation of the runtime identity. -/
def launch (root : String) (s : State) (session : ContainerSession) (generation : Nat) : Option State :=
  match reserveIdentity s.identities session.id generation session.runtime (containerName session) with
  | .error _ => none
  | .ok (identities, r) =>
    some (prepareHostSocket root { s with identities := identities, running := s.running ++ [⟨session, r⟩] } session)

def finish (s : State) (r : Running) : State :=
  { s with
    identities := releaseIdentity s.identities r.reservation
    running := s.running.filter fun r' => r'.session.id ≠ r.session.id
    sockets := s.sockets.filter fun e => e.1 ≠ r.session.id }

/-- The profile to launch: a saved one without a running session. -/
def launchable (s : State) (id : ProfileId) : Option ContainerSession :=
  if s.running.any fun r => r.session.id = id then none else s.saved.find? fun session => session.id = id

def step (root : String) (s : State) : Event → Option State
  | .save session replacedId =>
    match validateProfileName s.identities session s.saved replacedId with
    | .ok _ => some { s with saved := replaced s.saved session replacedId }
    | .error _ => none
  | .remove id => some { s with saved := s.saved.filter fun session => session.id ≠ id }
  | .launch id generation => (launchable s id).bind fun session => launch root s session generation
  | .finish id => (s.running.find? fun r => r.session.id = id).map (finish s)

def system (root : String) : System State Event := ⟨⟨[], ∅, [], [], []⟩, step root⟩

/-! ## Isolation -/

/-- No two running sessions have the same default socket, and no running session lost its own. -/
structure Isolated (root : String) (s : State) : Prop where
  distinct : ∀ r ∈ s.running, ∀ r' ∈ s.running, r.session.id ≠ r'.session.id → r.session.socket = none →
    r'.session.socket = none → defaultContainerSocket root r.session.name ≠ defaultContainerSocket root r'.session.name
  kept : s.lost = []

/-- No session is launched on a default socket while the name of another such session clashes with its own. -/
def apart (s : State) : Event → Bool
  | .launch id _ => (launchable s id).all fun session => session.socket.isSome ||
      s.running.all fun r => r.session.socket.isSome || !decide (Clash session.name r.session.name)
  | _ => true

/-- A live default socket is that of a running session. -/
def Owned (root : String) (s : State) : Prop :=
  ∀ e ∈ s.sockets, ∃ r ∈ s.running, r.session.id = e.1 ∧ r.session.socket = none ∧
    e.2 = defaultContainerSocket root r.session.name

section Steps

variable {root : String} {s s' : State}

variable {session : ContainerSession} {generation : Nat} {e : Event}

theorem hostSocket_default (h : session.socket = none) :
    hostSocket root session = defaultContainerSocket root session.name := by
  unfold hostSocket
  rw [h, Option.getD_none]

theorem launchable_some {id : ProfileId} (h : launchable s id = some session) :
    session.id = id ∧ ∀ r ∈ s.running, r.session.id ≠ id := by
  unfold launchable at h
  split at h
  · cases h
  · next hfree =>
    refine ⟨by simpa using List.find?_some h, ?_⟩
    intro r hr he
    exact hfree (List.any_eq_true.2 ⟨r, hr, by simpa using he⟩)

theorem apart_launch_iff {id : ProfileId}
    (hl : launchable s id = some session) : apart s (.launch id generation) = true ↔
      (session.socket = none → ∀ r ∈ s.running, r.session.socket = none → ¬ Clash session.name r.session.name) := by
  simp [apart, hl, imp_iff_not_or, Option.isSome_iff_ne_none]

theorem launch_some (h : launch root s session generation = some s') : ∃ r, s'.running = s.running ++ [⟨session, r⟩] ∧
      s'.sockets = (s.sockets.filter fun e => e.2 ≠ hostSocket root session) ++
        (if session.socket.isNone then [(session.id, hostSocket root session)] else []) ∧
      s'.lost = s.lost ++ if session.socket.isNone then
        (s.sockets.filter fun e => e.2 = hostSocket root session ∧ e.1 ≠ session.id).map Prod.fst else [] := by
  unfold launch at h
  split at h
  · cases h
  · next r _ =>
    obtain rfl := Option.some.inj h
    exact ⟨r, rfl, rfl, rfl⟩

theorem owned_launch (h : Owned root s) (hs : launch root s session generation = some s') : Owned root s' := by
  obtain ⟨r, hrunning, hsockets, -⟩ := launch_some hs
  intro e he
  rw [hsockets, List.mem_append] at he
  rw [hrunning]
  rcases he with he | he
  · obtain ⟨r', hr', howner⟩ := h e (List.mem_of_mem_filter he)
    exact ⟨r', List.mem_append_left _ hr', howner⟩
  · split at he
    · next hdefault =>
      obtain rfl := List.mem_singleton.1 he
      have hnone := Option.isNone_iff_eq_none.1 hdefault
      exact ⟨⟨session, r⟩, by simp, rfl, hnone, hostSocket_default hnone⟩
    · cases he

theorem save_some {replacedId : Option ProfileId} (hs : step root s (.save session replacedId) = some s') :
      s' = { s with saved := replaced s.saved session replacedId } := by
  change (match validateProfileName s.identities session s.saved replacedId with
    | .ok _ => some { s with saved := replaced s.saved session replacedId }
    | .error _ => none) = some s' at hs
  split at hs
  · exact (Option.some.inj hs).symm
  · cases hs

theorem owned_step (h : Owned root s) (hs : step root s e = some s') : Owned root s' := by
  cases e with
  | save session replacedId =>
    obtain rfl := save_some hs
    exact h
  | remove id =>
    obtain rfl := Option.some.inj hs
    exact h
  | launch id generation =>
    obtain ⟨session, -, hs⟩ := Option.bind_eq_some_iff.1 hs
    exact owned_launch h hs
  | finish id =>
    obtain ⟨r, -, rfl⟩ := Option.map_eq_some_iff.1 hs
    intro e he
    obtain ⟨hmem, hne⟩ := List.mem_filter.1 he
    obtain ⟨r', hr', hid, howner⟩ := h e hmem
    refine ⟨r', List.mem_filter.2 ⟨hr', ?_⟩, hid, howner⟩
    rw [hid]
    exact hne

/-- A launch without a clash leaves the sockets of the others alone. -/
theorem isolated_launch (howned : Owned root s) (h : Isolated root s) (hs : launch root s session generation = some s')
    (hapart : session.socket = none → ∀ r ∈ s.running, r.session.socket = none → ¬ Clash session.name r.session.name) :
    Isolated root s' := by
  obtain ⟨r, hrunning, -, hlost⟩ := launch_some hs
  constructor
  · intro r₁ h₁ r₂ h₂ hne hnone₁ hnone₂
    rw [hrunning, List.mem_append, List.mem_singleton] at h₁ h₂
    rcases h₁ with h₁ | rfl <;> rcases h₂ with h₂ | rfl
    · exact h.distinct _ h₁ _ h₂ hne hnone₁ hnone₂
    · rw [Ne, eq_comm, defaultContainerSocket_eq_iff]
      exact hapart hnone₂ r₁ h₁ hnone₁
    · rw [Ne, defaultContainerSocket_eq_iff]
      exact hapart hnone₁ r₂ h₂ hnone₂
    · exact absurd rfl hne
  · rw [hlost, h.kept, List.nil_append]
    split
    · next hdefault =>
      have hnone := Option.isNone_iff_eq_none.1 hdefault
      rw [List.map_eq_nil_iff, List.filter_eq_nil_iff]
      intro e he hpath
      obtain ⟨hpath, -⟩ := of_decide_eq_true hpath
      obtain ⟨r', hr', -, hnone', howner⟩ := howned e he
      rw [hostSocket_default hnone, howner, eq_comm, defaultContainerSocket_eq_iff] at hpath
      exact hapart hnone r' hr' hnone' hpath
    · rfl

theorem isolated_step (howned : Owned root s) (h : Isolated root s) (hapart : apart s e = true)
    (hs : step root s e = some s') : Isolated root s' := by
  cases e with
  | save session replacedId =>
    obtain rfl := save_some hs
    exact ⟨h.distinct, h.kept⟩
  | remove id =>
    obtain rfl := Option.some.inj hs
    exact ⟨h.distinct, h.kept⟩
  | launch id generation =>
    obtain ⟨session, hl, hs⟩ := Option.bind_eq_some_iff.1 hs
    exact isolated_launch howned h hs ((apart_launch_iff hl).1 hapart)
  | finish id =>
    obtain ⟨r, -, rfl⟩ := Option.map_eq_some_iff.1 hs
    refine ⟨?_, h.kept⟩
    intro r₁ h₁ r₂ h₂
    exact h.distinct r₁ (List.mem_of_mem_filter h₁) r₂ (List.mem_of_mem_filter h₂)

/-- A launch under a clashing name gives two running sessions the same socket. -/
theorem not_isolated_of_clash (hclash : apart s e = false) (hs : step root s e = some s') : ¬ Isolated root s' := by
  cases e with
  | launch id generation =>
    obtain ⟨session, hl, hs⟩ := Option.bind_eq_some_iff.1 hs
    have hexists : ∃ r ∈ s.running, session.socket = none ∧ r.session.socket = none ∧
        Clash session.name r.session.name := by
      by_contra hnone
      have happart : apart s (.launch id generation) ≠ true := by simp [hclash]
      refine happart ((apart_launch_iff hl).2 ?_)
      intro hd r hr hd' hc
      exact hnone ⟨r, hr, hd, hd', hc⟩
    obtain ⟨r, hr, hnone, hnone', hc⟩ := hexists
    obtain ⟨hid, hfree⟩ := launchable_some hl
    obtain ⟨reservation, hrunning, -⟩ := launch_some hs
    intro h
    refine h.distinct ⟨session, reservation⟩ (by simp [hrunning]) r (by simp [hrunning, hr]) ?_ hnone hnone'
      ((defaultContainerSocket_eq_iff _ _ _).2 hc)
    intro he
    exact hfree r hr (he.symm.trans hid)
  | _ => cases hclash

end Steps

/-- In a run whose launches keep the names apart, sessions are isolated in every state; a launch that does not ends the
isolation. -/
theorem isolated_iff_apart (root : String) :
    (∀ s, (system root).ReachableWhere (fun s e => apart s e = true) s → Isolated root s) ∧
      ∀ s e s', (system root).Reachable s → step root s e = some s' → apart s e = false → ¬ Isolated root s' := by
  constructor
  · intro s h
    have hboth := h.invariant (I := fun s => Owned root s ∧ Isolated root s)
      ⟨fun e he => absurd he List.not_mem_nil, fun r hr => absurd hr List.not_mem_nil, rfl⟩
      fun s e s' hi hc hs => ⟨owned_step hi.1 hs, isolated_step hi.1 hi.2 hc hs⟩
    exact hboth.2
  · intro s e s' _ hs hclash
    exact not_isolated_of_clash hclash hs

/-! ## Two runtimes -/

def editorId (n : Nat) : ProfileId := .ofByte n

/-- Two profiles of the same name, for different runtimes. -/
def editorOn (n : Nat) (runtime : String) : ContainerSession where
  id := editorId n
  name := "Editor"
  image := "editor"
  runtime := runtime

/-- Both profiles are saved, and one is launched. -/
def oneEditor : List Event :=
  [.save (editorOn 1 "container") none, .save (editorOn 2 "docker") none, .launch (editorId 1) 0]

/-- A third profile under another name. -/
def viewer : ContainerSession where
  id := editorId 3
  name := "Viewer"
  image := "viewer"

/-- The editor and the viewer are isolated; then the other editor is launched, and they are no longer. -/
theorem isolated_iff_apart_viewer : ∃ s s', s.running.length = 2 ∧ Isolated "/tmp/cw-501-1" s ∧
    step "/tmp/cw-501-1" s (.launch (editorId 2) 2) = some s' ∧ ¬ Isolated "/tmp/cw-501-1" s' := by
  have hrun : ((system "/tmp/cw-501-1").runWhere apart (system "/tmp/cw-501-1").init
      (oneEditor ++ [.save viewer none, .launch (editorId 3) 1])).any (fun s => decide (s.running.length = 2) &&
        !apart s (.launch (editorId 2) 2) && (step "/tmp/cw-501-1" s (.launch (editorId 2) 2)).isSome) = true := by
    decide +kernel
  obtain ⟨s, hs, hp⟩ := System.exists_reachableWhere hrun
  rw [Bool.and_eq_true, Bool.and_eq_true, decide_eq_true_iff, Bool.not_eq_true', Option.isSome_iff_exists] at hp
  obtain ⟨⟨hlen, hclash⟩, s', hs'⟩ := hp
  exact ⟨s, s', hlen, (isolated_iff_apart _).1 s hs, hs', (isolated_iff_apart _).2 s _ s' hs.reachable hs' hclash⟩

/-- Both are accepted and launched under their reservations, and the second launch removes the socket of the first. -/
theorem same_name_shares_socket : ∃ s, (system "/tmp/cw-501-1").Reachable s ∧ s.running.length = 2 ∧
    s.lost = [editorId 1] ∧ ¬ Isolated "/tmp/cw-501-1" s := by
  have hrun : ((system "/tmp/cw-501-1").run (system "/tmp/cw-501-1").init
      (oneEditor ++ [.launch (editorId 2) 1])).any (fun s => decide (s.running.length = 2 ∧ s.lost = [editorId 1])) =
      true := by decide
  obtain ⟨s, hs, hp⟩ := System.exists_reachable hrun
  obtain ⟨hlen, hlost⟩ := of_decide_eq_true hp
  refine ⟨s, hs, hlen, hlost, ?_⟩
  intro h
  rw [h.kept] at hlost
  cases hlost

end CocoaWay.Sessions
