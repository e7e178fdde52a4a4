import CocoaWay.Renderer.Completions

/-!
# The share of a renderer

An idle version that is to be replaced is credited against the renderer's share, so that between the preparation of an
upload and its publication both versions are charged.

* `Within` : what is charged is within the share, but for an allowance; `TokenOk` : the allowances of a prepared upload;
* `Settled` : the share holds, and no upload is prepared;
* `Inv` : the invariant of all runs;
* `attempts_spec`, `preflight_inv` : preparing an upload keeps it.
-/

namespace CocoaWay.Renderer
open Lib TextureLifetime Pixels
open RenderBudget (Reservation TextureBudget BudgetError normalOnly oversizedOnly ofClient creditOf)

variable {κ σ : Type} [DecidableEq κ] {b : TextureBudget} {client : κ} {w w' : World κ σ}

/-! ## Shares -/

/-- The bytes of a reservation that is not oversized. -/
def normalBytes : Reservation κ → Nat := normalOnly Reservation.bytes

/-- One for an oversized reservation. -/
def oversizedCount : Reservation κ → Nat := oversizedOnly RenderBudget.one

/-- What the renderer is charged is within its share, but for an allowance: its maximum for normal reservations, and one
oversized. -/
structure Within (b : TextureBudget) (client : κ) (w : World κ σ) (extra : (Reservation κ → Nat) → Nat) : Prop where
  normal : total normalBytes (w.charged client) ≤ b.maxClientBytes + extra normalBytes
  oversized : total oversizedCount (w.charged client) ≤ 1 + extra oversizedCount

theorem Within.mono {extra : (Reservation κ → Nat) → Nat} (h : Within b client w extra)
    (hle : ∀ f, total f (w'.charged client) ≤ total f (w.charged client)) : Within b client w' extra :=
  ⟨(hle _).trans h.normal, (hle _).trans h.oversized⟩

/-- What was allowed for is charged no more. -/
theorem Within.settle {extra : (Reservation κ → Nat) → Nat} (h : Within b client w extra)
    (hle : ∀ f, total f (w'.charged client) + extra f ≤ total f (w.charged client)) :
    Within b client w' fun _ => 0 := by
  have h1 := hle normalBytes
  have h2 := hle oversizedCount
  have h3 := h.normal
  have h4 := h.oversized
  exact ⟨by omega, by omega⟩

/-- What holds of a prepared upload: without its new storage the share is kept, and so it is without what was credited,
which is an idle version of the surface that the new storage will take the place of. -/
structure TokenOk (b : TextureBudget) (client : κ) (w : World κ σ) (token : Token κ σ) : Prop where
  before : Within b client w fun f => total f token.reservations
  credited : Within b client w fun f => token.credit.elim 0 f
  unread : ∀ r ∈ token.reservations, r ∉ w.reading
  credit : ∀ r ∈ token.credit, r ∉ w.reading

/-- Where the credited version is. -/
def Replaceable [DecidableEq σ] (w : World κ σ) (token : Token κ σ) : Prop :=
  ∀ r ∈ token.credit, ∃ cache v, w.caches.get token.surface = some cache ∧ v ∈ cache.versions ∧
    v.resource.reservation = r ∧ v.Idle w.done ∧
    v.resource.compatible token.prepared.width token.prepared.height = false

structure Settled (b : TextureBudget) (client : κ) (w : World κ σ) : Prop where
  accounts : Accounts b client w
  token : w.token = none
  within : Within b client w fun _ => 0

theorem Settled.sweep (h : Settled b client w) : Settled b client (w.sweep client) :=
  ⟨h.accounts.sweep, h.token, h.within.mono fun _ => by rw [charged_sweep h.accounts]⟩

variable [DecidableEq σ] {surface : σ} {cache cache' : Cache κ}

/-- The share, whether an upload is prepared or not. -/
structure Ready (b : TextureBudget) (client : κ) (w : World κ σ) : Prop where
  accounts : Accounts b client w
  settled : w.token = none → Within b client w fun _ => 0
  token : ∀ token, w.token = some token → TokenOk b client w token ∧ Replaceable w token

/-- The invariant of a renderer. -/
structure Inv (b : TextureBudget) (client : κ) (w : World κ σ) : Prop extends Ready b client w where
  swept : Swept client w

theorem Ready.sweep (h : Ready b client w) : Inv b client (w.sweep client) := by
  have hcharged := charged_sweep h.accounts
  have hwithin : ∀ {extra}, Within b client w extra → Within b client (w.sweep client) extra := fun hw =>
    hw.mono fun _ => by rw [hcharged]
  refine ⟨⟨h.accounts.sweep, fun ht => hwithin (h.settled ht), fun token ht => ?_⟩, swept_sweep h.accounts⟩
  obtain ⟨htoken, hrep⟩ := h.token token ht
  exact ⟨⟨hwithin htoken.before, hwithin htoken.credited, htoken.unread, htoken.credit⟩, hrep⟩

theorem Settled.ready (h : Settled b client w) : Ready b client w :=
  ⟨h.accounts, fun _ => h.within, fun token ht => absurd (h.token.symm.trans ht) (by simp)⟩

theorem Ready.to_settled (h : Ready b client w) (ht : w.token = none) : Settled b client w :=
  ⟨h.accounts, ht, h.settled ht⟩

/-! ## Caches that lose versions -/

omit [DecidableEq κ] in
theorem owned_subperm (hsub : (reservationsOf cache').Subperm (reservationsOf (w.cacheOf surface))) :
    (w.setCache surface cache').owned.Subperm w.owned := by
  rw [owned_setCache, (owned_perm w surface).subperm_left]
  exact (List.subperm_append_right _).2 ((List.subperm_append_right _).2 hsub)

omit [DecidableEq κ] in
theorem caches_setCache (h : ∀ cache ∈ w.caches.values, CacheOk cache) (hok : CacheOk cache') :
    ∀ cache ∈ (w.setCache surface cache').caches.values, CacheOk cache := by
  intro cache hc
  obtain ⟨s, hs⟩ := Table.mem_values_iff.1 hc
  have hs : (w.caches.set surface cache').get s = some cache := hs
  rw [Table.get_set] at hs
  split at hs
  · exact Option.some.inj hs ▸ hok
  · exact h cache (Table.mem_values_iff.2 ⟨s, hs⟩)

theorem cacheOf_ok (h : Accounts b client w) : CacheOk (w.cacheOf surface) := by
  unfold World.cacheOf
  cases hc : w.caches.get surface with
  | none => exact CacheOk.new
  | some cache => exact h.caches cache (Table.mem_values_iff.2 ⟨surface, hc⟩)

theorem Settled.setCache (h : Settled b client w) (hok : CacheOk cache')
    (hsub : (reservationsOf cache').Subperm (reservationsOf (w.cacheOf surface))) :
    Settled b client (w.setCache surface cache') := by
  have howned := owned_subperm hsub
  have haccounts : Accounts b client (w.setCache surface cache') :=
    h.accounts.shrink rfl rfl rfl howned (caches_setCache h.accounts.caches hok)
  refine ⟨haccounts, h.token, h.within.mono fun f => charged_le f rfl fun r hr => ?_⟩
  rw [List.mem_append] at hr ⊢
  exact hr.imp_left fun hr => howned.subset hr

theorem Settled.trim (h : Settled b client w) (surface : σ) (compatible : Resource κ → Bool) :
    Settled b client (w.trim surface compatible) := by
  unfold World.trim
  cases hc : w.caches.get surface with
  | none => exact h
  | some cache =>
    have hof : w.cacheOf surface = cache := by rw [World.cacheOf, hc]; rfl
    have hok := h.accounts.caches cache (Table.mem_values_iff.2 ⟨surface, hc⟩)
    refine h.setCache (hok.retain _ _) ?_
    rw [hof]
    exact (retain_reservations _ _ cache).subperm

theorem Settled.pruneAll (h : Settled b client w) : Settled b client w.pruneAll := by
  unfold World.pruneAll
  generalize w.caches.keys = surfaces
  induction surfaces generalizing w with
  | nil => exact h
  | cons surface surfaces ih => exact ih (h.trim surface _)

theorem Settled.evict (h : Settled b client w) (surface : σ) : Inv b client (evict client w surface) := by
  have howned : ({ w with caches := w.caches.remove surface } : World κ σ).owned.Subperm w.owned := by
    rw [(owned_perm w surface).subperm_left]
    exact ((List.sublist_append_right _ _).append_right _).subperm
  have hcaches : ∀ cache ∈ (w.caches.remove surface).values, CacheOk cache := by
    intro cache hc
    obtain ⟨s, hs⟩ := Table.mem_values_iff.1 hc
    rw [Table.get_remove] at hs
    split at hs
    · cases hs
    · exact h.accounts.caches cache (Table.mem_values_iff.2 ⟨s, hs⟩)
  refine Ready.sweep (Settled.ready ⟨h.accounts.shrink rfl rfl rfl howned hcaches, h.token, h.within.mono
    fun f => charged_le f rfl fun r hr => ?_⟩)
  rw [List.mem_append] at hr ⊢
  exact hr.imp_left fun hr => howned.subset hr

/-! ## New storage -/

/-- Storage that was allocated against a credit, and that nothing refers to yet. -/
structure NewStorage (b : TextureBudget) (client : κ) (w : World κ σ) (credit : Option (Reservation κ))
    (r : Reservation κ) :
    Prop where
  live : r ∈ w.budget.live
  client_eq : r.client = client
  fresh : r ∉ w.references
  normal : normalBytes r + total normalBytes (w.charged client) ≤ b.maxClientBytes + credit.elim 0 normalBytes
  oversized : oversizedCount r + total oversizedCount (w.charged client) ≤ 1 + credit.elim 0 oversizedCount
  credit : ∀ r ∈ credit, r ∉ w.reading

omit [DecidableEq σ]

theorem charged_le_client (f : Reservation κ → Nat) :
    total f (w.charged client) ≤ total (ofClient client f) w.budget.live := by
  unfold World.charged
  rw [total_filter]
  apply total_mono
  intro r _
  unfold ofClient
  simp only [decide_eq_true_eq]
  split
  · rw [if_pos (by tauto)]
  · exact Nat.zero_le _

/-- Only the waiting list and flags may differ. -/
theorem Accounts.sameCharges (h : Accounts b client w) {budget : RenderBudget.State κ}
    (hs : RenderBudget.SameCharges w.budget budget) (hcells : budget.cells = w.budget.cells)
    (hnext : budget.nextId = w.budget.nextId) : Accounts b client { w with budget } :=
  ⟨h.budget.frame hs fun id => by rw [hcells]; exact h.budget.cells id, by rw [hs.live]; exact h.ids,
    by rw [hs.live, hnext]; exact h.ids_lt, fun r hr => by rw [hs.live]; exact h.live r hr, h.owned, h.caches, h.frames_le,
    h.frames, h.frames_lt, fun r hr hc => by rw [hcells]; exact h.readers r (hs.live ▸ hr) hc⟩

theorem wait_nextId (s : RenderBudget.State κ) (wake : κ) : (RenderBudget.wait s wake).nextId = s.nextId := by
  unfold RenderBudget.wait
  split <;> rfl

theorem not_referenced_of_nextId (h : Accounts b client w) {r : Reservation κ} (hid : r.id = w.budget.nextId) :
    r ∉ w.references := by
  intro hr
  have hlt := h.ids_lt r (h.live r hr).1
  omega

variable {credit : Option (Reservation κ)}

/-- A new reservation is live, and nothing else changes. -/
theorem Accounts.charge (h : Accounts b client w) {bytes : Nat}
    (hc : ∀ r ∈ credit, r ∈ w.budget.live ∧ r.client = client) (hf : RenderBudget.Fits b w.budget bytes client credit) :
    Accounts b client { w with budget := (RenderBudget.charge b w.budget bytes client credit).2 } ∧
      ({ w with budget := (RenderBudget.charge b w.budget bytes client credit).2 } : World κ σ).charged client =
        w.charged client := by
  have hnew := not_referenced_of_nextId h (r := (RenderBudget.charge b w.budget bytes client credit).1) rfl
  refine ⟨⟨h.budget.charge hc hf, ?_, fun r hr => ?_, fun r hr => ?_, h.owned, h.caches, h.frames_le, h.frames,
    h.frames_lt,
    fun r hr hcl => ?_⟩, ?_⟩
  · refine List.nodup_cons.2 ⟨fun hm => ?_, h.ids⟩
    obtain ⟨r, hr, he⟩ := List.mem_map.1 hm
    exact absurd (h.ids_lt r hr) (by rw [he]; exact Nat.lt_irrefl _)
  · rcases List.mem_cons.1 hr with rfl | hr
    · exact Nat.lt_succ_self _
    · exact Nat.lt_succ_of_lt (h.ids_lt r hr)
  · obtain ⟨hl, hcl⟩ := h.live r hr
    exact ⟨List.mem_cons_of_mem _ hl, hcl⟩
  · rcases List.mem_cons.1 hr with rfl | hr
    · have hzero := readersOf_eq_zero.2 fun hm => hnew (List.mem_append_left _ (List.mem_append_right _ hm))
      show (Function.update w.budget.cells w.budget.nextId RenderBudget.Cell.new w.budget.nextId).readers = _
      rw [Function.update_self]
      exact hzero.symm
    · have hne : r.id ≠ w.budget.nextId := (h.ids_lt r hr).ne
      show (Function.update w.budget.cells w.budget.nextId RenderBudget.Cell.new r.id).readers = _
      rw [Function.update_of_ne hne]
      exact h.readers r hr hcl
  · refine List.filter_cons_of_neg fun hm => hnew (List.mem_append_left _ ?_)
    exact (of_decide_eq_true hm).2

/-- Credit goes to a live reservation of the renderer that no frame reads. -/
theorem creditOf_unread (h : Accounts b client w) {idle : Option (Reservation κ)}
    (hidle : ∀ r ∈ idle, r ∈ w.budget.live) :
    ∀ r ∈ creditOf b w.budget client idle, r ∈ idle ∧ r ∈ w.budget.live ∧ r.client = client ∧
      r ∉ w.reading := by
  intro r hr
  have hlive := RenderBudget.creditOf_mem (fun r hr _ => hidle r hr) r hr
  simp only [creditOf, Option.mem_def, Option.filter_eq_some_iff, Bool.and_eq_true, beq_iff_eq] at hr
  refine ⟨hr.1, hlive.1, hlive.2, fun hm => ?_⟩
  have hreaders := h.readers r hlive.1 hlive.2
  rw [hr.2.2] at hreaders
  exact readersOf_eq_zero.1 hreaders.symm hm

theorem elim_ofClient (f : Reservation κ → Nat) (hc : ∀ r ∈ credit, r.client = client) :
    credit.elim 0 (ofClient client f) = credit.elim 0 f := by
  cases credit with
  | none => rfl
  | some r => exact RenderBudget.ofClient_self f (hc r rfl)

/-- What is admitted fits in the share, less what was credited. -/
theorem NewStorage.of_fits (h : Settled b client w) {bytes : Nat}
    (hc : ∀ r ∈ credit, r ∈ w.budget.live ∧ r.client = client ∧ r ∉ w.reading)
    (hf : RenderBudget.Fits b w.budget bytes client credit) :
    NewStorage b client { w with budget := (RenderBudget.charge b w.budget bytes client credit).2 } credit
      (RenderBudget.charge b w.budget bytes client credit).1 := by
  obtain ⟨-, hcharged⟩ := h.accounts.charge (fun r hr => ⟨(hc r hr).1, (hc r hr).2.1⟩) hf
  have hclient : ∀ r ∈ credit, r.client = client := fun r hr => (hc r hr).2.1
  have hnormal := h.within.normal
  have hover := h.within.oversized
  have hle1 : total normalBytes (w.charged client) ≤ _ := charged_le_client normalBytes
  have hle2 : total oversizedCount (w.charged client) ≤ _ := charged_le_client oversizedCount
  refine ⟨List.mem_cons_self, rfl, not_referenced_of_nextId h.accounts rfl, ?_, ?_, fun r hr => (hc r hr).2.2⟩
  · rw [hcharged]
    have hfit := hf.normal
    rw [elim_ofClient _ hclient] at hfit
    show normalOnly _ _ + _ ≤ _ + credit.elim 0 (normalOnly _)
    unfold normalBytes at hnormal hle1 ⊢
    by_cases hb : b.maxClientBytes < bytes
    · have hzero : normalOnly Reservation.bytes
          (RenderBudget.charge b w.budget bytes client credit).1 = 0 := by
        simp [normalOnly, RenderBudget.charge, hb]
      omega
    · have hbytes : normalOnly Reservation.bytes
          (RenderBudget.charge b w.budget bytes client credit).1 = bytes := by
        simp [normalOnly, RenderBudget.charge, hb]
      have hfit := hfit (by omega)
      omega
  · rw [hcharged]
    have hfit := hf.oversized
    rw [elim_ofClient _ hclient] at hfit
    show oversizedOnly _ _ + _ ≤ _ + credit.elim 0 (oversizedOnly _)
    unfold oversizedCount at hover hle2 ⊢
    by_cases hb : b.maxClientBytes < bytes
    · have hone : oversizedOnly RenderBudget.one
          (RenderBudget.charge b w.budget bytes client credit).1 = 1 := by
        simp [oversizedOnly, RenderBudget.charge, RenderBudget.one, hb]
      have hfit := hfit hb
      omega
    · have hzero : oversizedOnly RenderBudget.one
          (RenderBudget.charge b w.budget bytes client credit).1 = 0 := by
        simp [oversizedOnly, RenderBudget.charge, hb]
      omega

theorem allocateTexture_spec (h : Settled b client w) (texW texH : Int) (device : Device) {idle : Option (Resource κ)}
    (hidle : ∀ t ∈ idle, t.reservation ∈ w.budget.live) :
    Settled b client { w with budget := (allocateTexture b client texW texH device idle w.budget).2 } ∧
      ∀ t, (allocateTexture b client texW texH device idle w.budget).1 = .ok t →
        t.width = texW ∧ t.height = texH ∧
          NewStorage b client { w with budget := (allocateTexture b client texW texH device idle w.budget).2 }
            (creditOf b w.budget client (idle.map (·.reservation))) t.reservation := by
  have hidle' : ∀ r ∈ idle.map (·.reservation), r ∈ w.budget.live := by
    intro r hr
    obtain ⟨t, ht, rfl⟩ := Option.map_eq_some_iff.1 hr
    exact hidle t ht
  have hcredit := creditOf_unread h.accounts hidle'
  unfold allocateTexture
  cases hbytes : textureReservationBytes device.layout texW texH with
  | none => exact ⟨h, nofun⟩
  | some bytes =>
    dsimp only
    rcases RenderBudget.tryReserveReplacing_cases b w.budget bytes client (idle.map (·.reservation)) with
      he | he | ⟨hpos, hpress, he⟩ <;> rw [he]
    · exact ⟨h, nofun⟩
    · have hsame := RenderBudget.sameCharges_wait w.budget client
      refine ⟨⟨h.accounts.sameCharges hsame (RenderBudget.wait_cells _ _) (wait_nextId _ _), h.token, h.within.mono
        fun f => ?_⟩, nofun⟩
      exact charged_le f hsame.live fun _ hr => hr
    · have hlive := fun r hr => (hcredit r hr).2
      have hfits := h.accounts.budget.fits hpos (fun r hr => ⟨(hlive r hr).1, (hlive r hr).2.1⟩) hpress
      obtain ⟨haccounts, hcharged⟩ := h.accounts.charge (fun r hr => ⟨(hlive r hr).1, (hlive r hr).2.1⟩) hfits
      have hsettled : Settled b client { w with budget := _ } :=
        ⟨haccounts, h.token, h.within.mono fun f => by rw [hcharged]⟩
      have hnew := NewStorage.of_fits h hlive hfits
      cases device.texture with
      | none => exact ⟨hsettled, nofun⟩
      | some made =>
        dsimp only
        split
        · exact ⟨hsettled, nofun⟩
        · refine ⟨hsettled, fun t ht => ?_⟩
          obtain rfl := Except.ok.inj ht
          exact ⟨rfl, rfl, hnew⟩

/-! ## Preparing an upload -/

/-- What a preparation selects: nothing while every version is busy, compatible storage, or storage to be replaced by
what is allocated. -/
theorem prepareMatchingWith_spec {T ε S : Type} (done : Nat → Bool) (compatible : T → Bool)
    (allocate : Option T → S → Except ε T × S) (c : TextureVersions T) (s : S) :
    ∃ vs, AllPruned done c.versions vs ∧
      (prepareMatchingWith done compatible allocate c s = (.error .busy, { c with versions := vs }, s, none) ∨
        prepareMatchingWith done compatible allocate c s = (.ok none, { c with versions := vs }, s, none) ∨
        ∃ idle, (∀ t ∈ idle, compatible t = false ∧ ∃ v ∈ vs, v.resource = t ∧ v.Idle done) ∧
          prepareMatchingWith done compatible allocate c s =
            (match (allocate idle s).1 with
              | .ok t => .ok (some t)
              | .error e => .error (.allocation e), { c with versions := vs }, (allocate idle s).2, idle)) := by
  obtain ⟨vs, hc, hp, hsel⟩ := updateTarget_spec done compatible c
  refine ⟨vs, hp, ?_⟩
  unfold prepareMatchingWith writableMatching
  generalize updateTarget done compatible c = target at hc hsel
  obtain ⟨result, c'⟩ := target
  dsimp only at hc hsel ⊢
  subst hc
  cases result with
  | error e => exact Or.inl rfl
  | ok i =>
    dsimp only
    by_cases hany : (vs[i]?.map Version.resource).any compatible = true
    · rw [if_pos hany]
      exact Or.inr (Or.inl rfl)
    · rw [if_neg hany]
      refine Or.inr (Or.inr ⟨vs[i]?.map Version.resource, fun t ht => ?_, ?_⟩)
      · obtain ⟨v, hv, rfl⟩ := Option.map_eq_some_iff.1 ht
        exact ⟨by simpa [hv] using hany, v, List.mem_of_getElem? hv, rfl, selected_idle hsel hv⟩
      · generalize allocate (vs[i]?.map Version.resource) s = made
        obtain ⟨_ | _, s'⟩ := made <;> rfl

/-- With a callback that changes nothing it is `prepare_matching`. -/
theorem prepareMatchingWith_eq {T ε S : Type} (done : Nat → Bool) (compatible : T → Bool)
    (allocate : Option T → S → Except ε T × S) (c : TextureVersions T) (s : S) :
    ((prepareMatchingWith done compatible allocate c s).1, (prepareMatchingWith done compatible allocate c s).2.1) =
      prepareMatching done compatible (fun idle => (allocate idle s).1) c := by
  unfold prepareMatchingWith prepareMatching
  rcases writableMatching done compatible c with ⟨_ | idle, c⟩
  · rfl
  · dsimp only
    split
    · rfl
    · rcases allocate idle s with ⟨_ | _, s'⟩ <;> rfl

variable [DecidableEq σ]

/-- What an attempt leaves: the share as it was, and with new storage the idle version it is to replace. -/
structure AttemptOk (b : TextureBudget) (client : κ) (surface : σ) (texW texH : Int) (a : Attempt κ σ) : Prop where
  settled : Settled b client a.world
  reused : a.result = .ok none → a.credit = none
  storage : ∀ t, a.result = .ok (some t) → t.width = texW ∧ t.height = texH ∧
    NewStorage b client a.world a.credit t.reservation
  replaceable : ∀ t, a.result = .ok (some t) → ∀ r ∈ a.credit, ∃ cache v, a.world.caches.get surface = some cache ∧
    v ∈ cache.versions ∧ v.resource.reservation = r ∧ v.Idle a.world.done ∧ v.resource.compatible texW texH = false

theorem AttemptOk.of_error {texW texH : Int} {a : Attempt κ σ} (h : Settled b client a.world)
    {e : PrepareError (Option BudgetError)} (he : a.result = .error e) : AttemptOk b client surface texW texH a := by
  refine ⟨h, fun hn => ?_, fun t ht => ?_, fun t ht => ?_⟩
  · rw [he] at hn
    cases hn
  · rw [he] at ht
    cases ht
  · rw [he] at ht
    cases ht

/-- An attempt for a surface without a cache. -/
theorem attempt_first (h : Settled b client w) {texW texH : Int} {device : Device} :
    AttemptOk b client surface texW texH
      (match allocateTexture b client texW texH device none w.budget with
        | (.ok resource, budget) => ⟨.ok (some resource), { w with budget }, none⟩
        | (.error e, budget) => ⟨.error (.allocation e), { w with budget }, none⟩) := by
  have hidle : ∀ t ∈ (none : Option (Resource κ)), t.reservation ∈ w.budget.live := nofun
  obtain ⟨hsettled, hnew⟩ := allocateTexture_spec h texW texH device hidle
  generalize allocateTexture b client texW texH device none w.budget = made at hsettled hnew
  obtain ⟨e | t, budget⟩ := made
  · exact AttemptOk.of_error hsettled rfl
  · refine ⟨hsettled, nofun, fun t' ht => ?_, fun t' _ r hr => nomatch hr⟩
    obtain rfl := Option.some.inj (Except.ok.inj ht)
    exact hnew t rfl

omit [DecidableEq κ] in
theorem cacheOf_eq (hc : w.caches.get surface = some cache) : w.cacheOf surface = cache := by
  rw [World.cacheOf, hc]
  rfl

omit [DecidableEq κ] in
/-- Trimming and pruning before the attempt. -/
theorem readied (hok : CacheOk cache) (done : Nat → Bool) (compatible : Resource κ → Bool) :
    CacheOk (currentBusy done (retainIdleSpare done compatible cache).2).2 ∧
      (reservationsOf (currentBusy done (retainIdleSpare done compatible cache).2).2).Sublist (reservationsOf cache) := by
  obtain ⟨vs, hp, he⟩ := currentBusy_pruned done (retainIdleSpare done compatible cache).2
  rw [he]
  refine ⟨(hok.retain done compatible).pruned hp, ?_⟩
  show (vs.map _).Sublist _
  rw [reservations_of_pruned hp]
  exact retain_reservations done compatible cache

theorem attempt_spec (h : Settled b client w) (surface : σ) (damage : Option Presentation.Rect) (texW texH : Int)
    (device : Device) : AttemptOk b client surface texW texH (attempt b client w surface damage texW texH device) := by
  unfold attempt
  cases hc : w.caches.get surface with
  | none => exact attempt_first h
  | some cache =>
    dsimp only
    split
    · exact ⟨h, fun _ => rfl, nofun, nofun⟩
    · obtain ⟨hok, hsub⟩ := readied (h.accounts.caches cache (Table.mem_values_iff.2 ⟨surface, hc⟩)) w.done
        (TextureResource.compatible texW texH)
      generalize (currentBusy w.done (retainIdleSpare w.done (TextureResource.compatible texW texH) cache).2).2 = cache₁
        at hok hsub ⊢
      have hw₁ : Settled b client ((w.setCache surface cache₁).sweep client) :=
        (h.setCache hok (by rw [cacheOf_eq hc]; exact hsub.subperm)).sweep
      have hc₁ : ((w.setCache surface cache₁).sweep client).caches.get surface = some cache₁ := Table.get_set_self _ _ _
      generalize (w.setCache surface cache₁).sweep client = w₁ at hw₁ hc₁ ⊢
      obtain ⟨vs, hp, hcases⟩ := prepareMatchingWith_spec w₁.done (TextureResource.compatible texW texH)
        (allocateTexture b client texW texH device) cache₁ w₁.budget
      have hw₂ : Settled b client (w₁.setCache surface { cache₁ with versions := vs }) := by
        refine hw₁.setCache (hok.pruned hp) ?_
        have hsame : reservationsOf { cache₁ with versions := vs } = reservationsOf cache₁ := reservations_of_pruned hp
        rw [cacheOf_eq hc₁, hsame]
      rcases hcases with he | he | ⟨idle, hidle, he⟩ <;> rw [he]
      · exact ⟨hw₂, fun _ => rfl, nofun, nofun⟩
      · exact ⟨hw₂, fun _ => rfl, nofun, nofun⟩
      · have hget : (w₁.setCache surface { cache₁ with versions := vs }).caches.get surface =
            some { cache₁ with versions := vs } := Table.get_set_self _ _ _
        have hlive : ∀ t ∈ idle, t.reservation ∈ w₁.budget.live := by
          intro t ht
          obtain ⟨-, v, hv, rfl, -⟩ := hidle t ht
          exact (hw₂.accounts.live _ (List.mem_append_left _ (List.mem_append_left _ (mem_owned_of_cached hget hv)))).1
        obtain ⟨hsettled, hnew⟩ := allocateTexture_spec hw₂ texW texH device hlive
        have hlive' : ∀ r ∈ idle.map (·.reservation), r ∈ w₁.budget.live := by
          intro r hr
          obtain ⟨t, ht, rfl⟩ := Option.map_eq_some_iff.1 hr
          exact hlive t ht
        have hcredit := creditOf_unread hw₂.accounts hlive'
        refine ⟨hsettled, fun hn => ?_, fun t ht => ?_, fun t ht r hr => ?_⟩
        · dsimp only at hn
          split at hn <;> cases hn
        · dsimp only at ht
          split at ht
          · next t' hmade =>
            obtain rfl := Option.some.inj (Except.ok.inj ht)
            exact hnew t' hmade
          · cases ht
        · obtain ⟨hin, -⟩ := hcredit r hr
          obtain ⟨t', ht', rfl⟩ := Option.map_eq_some_iff.1 hin
          obtain ⟨hincompatible, v, hv, rfl, hvi⟩ := hidle t' ht'
          exact ⟨_, v, hget, hv, rfl, hvi, hincompatible⟩

theorem attempts_spec (h : Settled b client w) (surface : σ) (damage : Option Presentation.Rect) (texW texH : Int)
    (first second : Device) :
    AttemptOk b client surface texW texH (attempts b client w surface damage texW texH first second) := by
  have h₁ := attempt_spec h surface damage texW texH first
  have h₂ := attempt_spec (h₁.settled.pruneAll.sweep) surface damage texW texH second
  unfold attempts
  dsimp only
  split
  · split
    · next he => exact AttemptOk.of_error h₂.settled.pruneAll he
    · exact h₂
  · exact h₁

omit [DecidableEq σ] in
/-- New storage becomes that of the prepared upload. -/
theorem NewStorage.token_ok (h : Settled b client w) {token : Token κ σ} {r : Reservation κ}
    (hnew : NewStorage b client w credit r) (hr : token.reservations = [r]) (hc : token.credit = credit) :
    Accounts b client { w with token := some token } ∧ TokenOk b client { w with token := some token } token := by
  have howned : ({ w with token := some token } : World κ σ).owned = w.owned ++ [r] := by
    unfold World.owned
    rw [h.token]
    simp [hr]
  have hmem : ∀ x, x ∈ ({ w with token := some token } : World κ σ).owned ++ w.reading → x ∈ w.owned ++ w.reading ∨
    x = r := by
    intro x hx
    rw [howned] at hx
    simp only [List.mem_append, List.mem_singleton] at hx ⊢
    tauto
  have hfresh : r ∉ w.owned ∧ r ∉ w.reading := by
    have hf := hnew.fresh
    unfold World.references at hf
    simp only [List.mem_append, not_or] at hf
    exact hf.1
  have hle : ∀ f, total f (({ w with token := some token } : World κ σ).charged client) ≤
      total f (w.charged client) + f r := by
    intro f
    refine total_filter_le_add f h.accounts.ids.of_map fun x _ hx => ?_
    simp only [decide_eq_true_eq] at hx ⊢
    exact (hmem x hx.2).imp_left fun hm => ⟨hx.1, hm⟩
  have hnormal := h.within.normal
  have hover := h.within.oversized
  have hn := hle normalBytes
  have ho := hle oversizedCount
  have hfn := hnew.normal
  have hfo := hnew.oversized
  refine ⟨⟨h.accounts.budget, h.accounts.ids, h.accounts.ids_lt, fun x hx => ?_, ?_, h.accounts.caches,
    h.accounts.frames_le,
    h.accounts.frames, h.accounts.frames_lt, h.accounts.readers⟩, ⟨?_, ?_⟩, ⟨?_, ?_⟩, fun x hx => ?_, ?_⟩
  · rcases List.mem_append.1 hx with hx | hx
    · rcases hmem x hx with hm | rfl
      · exact h.accounts.live x (List.mem_append_left _ hm)
      · exact ⟨hnew.live, hnew.client_eq⟩
    · exact h.accounts.live x (List.mem_append_right _ hx)
  · rw [howned, List.nodup_append]
    refine ⟨h.accounts.owned, List.nodup_singleton r, fun a ha c hc hac => hfresh.1 ?_⟩
    rw [← List.mem_singleton.1 hc, ← hac]
    exact ha
  · rw [hr]
    simp only [total_cons, total_nil]
    omega
  · rw [hr]
    simp only [total_cons, total_nil]
    omega
  · rw [hc]
    omega
  · rw [hc]
    omega
  · rw [hr, List.mem_singleton] at hx
    exact hx ▸ hfresh.2
  · rw [hc]
    exact hnew.credit

omit [DecidableEq σ] in
theorem Settled.token_ok (h : Settled b client w) {token : Token κ σ} (hr : token.reservations = [])
    (hc : token.credit = none) :
    Accounts b client { w with token := some token } ∧ TokenOk b client { w with token := some token } token := by
  have howned : ({ w with token := some token } : World κ σ).owned = w.owned := by
    unfold World.owned
    rw [h.token]
    simp [hr]
  have hle : ∀ f, total f (({ w with token := some token } : World κ σ).charged client) ≤
    total f (w.charged client) := by
    intro f
    refine charged_le f rfl fun x hx => ?_
    rw [howned] at hx
    exact hx
  refine ⟨h.accounts.shrink rfl rfl rfl (by rw [howned]) h.accounts.caches, ?_, ?_, ?_, ?_⟩
  · rw [hr]
    exact h.within.mono hle
  · rw [hc]
    exact h.within.mono hle
  · rw [hr]
    nofun
  · rw [hc]
    nofun

theorem preflight_inv (h : Inv b client w) (ht : w.token = none) (surface : σ) (frame : Nat)
    (damage : List Presentation.Rect)
    (texW texH : Int) (first second : Device) :
    Inv b client (preflight b client w surface frame damage texW texH first second) := by
  unfold preflight
  split
  · exact h
  · next hpos =>
    have hspec := attempts_spec (h.to_settled ht) surface (Presentation.coalesceDamage damage texW texH) texW texH first second
    generalize attempts b client w surface (Presentation.coalesceDamage damage texW texH) texW texH first second = last
      at hspec ⊢
    dsimp only
    split
    · next resource hres =>
      have hpos : 0 < texW ∧ 0 < texH := by omega
      obtain ⟨prepared, hp, rfl, rfl, hresource⟩ := preflightPixels_eq hpos damage
        (resource.map fun t : Resource κ => (t.texture, t.reservation))
      rw [hp, Option.map_some]
      refine Ready.sweep ?_
      generalize htoken : (⟨surface, frame, prepared, last.credit⟩ : Token κ σ) = token
      have hreservations : token.reservations = resource.toList.map (·.reservation) := by
        rw [← htoken, Token.reservations, hresource]
        cases resource <;> rfl
      have hcredit : token.credit = last.credit := by rw [← htoken]
      have hok : Accounts b client { last.world with token := some token } ∧
          TokenOk b client { last.world with token := some token } token ∧
          Replaceable { last.world with token := some token } token := by
        cases resource with
        | none =>
          have hnone := hcredit.trans (hspec.reused hres)
          obtain ⟨haccounts, htok⟩ := hspec.settled.token_ok hreservations hnone
          exact ⟨haccounts, htok, fun r hr => by rw [hnone] at hr; cases hr⟩
        | some t =>
          obtain ⟨haccounts, htok⟩ := (hspec.storage t hres).2.2.token_ok hspec.settled hreservations hcredit
          refine ⟨haccounts, htok, fun r hr => ?_⟩
          rw [hcredit] at hr
          rw [← htoken]
          exact hspec.replaceable t hres r hr
      refine ⟨hok.1, nofun, fun token' htoken' => ?_⟩
      obtain rfl := Option.some.inj htoken'
      exact hok.2
    · exact Ready.sweep hspec.settled.ready

end CocoaWay.Renderer
