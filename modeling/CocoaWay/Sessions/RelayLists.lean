import CocoaWay.Lib.Lines
import CocoaWay.Lib.Split
import CocoaWay.Sessions.Plan

/-!
# The lists handed to the relay helper

* `strLines`, `relayEnvList` : reading a list from an environment variable, one entry a line;
* `Plain` : an entry that stays itself as a line;
* `relayEnvList_join_iff` : a list is read back exactly when all its entries are plain;
* `bridgedEnvironment` : the variables a bridge to the proxy of the host adds;
* `RelayFaithful`, `relayFaithful_iff` : when the relay gives the container the lists of the profile, and the options
  of the direct launch.
-/

namespace CocoaWay.Sessions

open Lib (splitAfter)
open Launch (trim isWhitespace)
open ProfileConfig (ContainerSession)

/-! ## Reading -/

/-- A line without its ending, a line feed with perhaps a carriage return before it. -/
def stripLineEnding (line : List Char) : List Char :=
  if line.getLast? = some '\n' then
    if line.dropLast.getLast? = some '\r' then line.dropLast.dropLast else line.dropLast
  else line

/-- `str::lines`. -/
def strLines (text : List Char) : List (List Char) := (splitAfter (· == '\n') text).map stripLineEnding

def relayEnvList (value : String) : List String :=
  ((strLines value.toList).map fun line => trim (String.ofList line)).filter (· ≠ "")

/-- An entry that is a line of its own: it has no line feed, no white space around it, and is not empty. -/
structure Plain (entry : String) : Prop where
  nonempty : entry ≠ ""
  trimmed : trim entry = entry
  single : '\n' ∉ entry.toList

instance (entry : String) : Decidable (Plain entry) :=
  decidable_of_iff (entry ≠ "" ∧ trim entry = entry ∧ '\n' ∉ entry.toList)
    ⟨fun h => ⟨h.1, h.2.1, h.2.2⟩, fun h => ⟨h.1, h.2, h.3⟩⟩

/-! ## Trimming -/

section Trim

variable {s : String}

theorem trim_toList (s : String) : (trim s).toList =
    ((s.toList.dropWhile isWhitespace).reverse.dropWhile isWhitespace).reverse := by
  simp [trim]

theorem mem_trim {c : Char} (h : c ∈ (trim s).toList) : c ∈ s.toList := by
  rw [trim_toList, List.mem_reverse] at h
  have hdrop := (List.dropWhile_suffix isWhitespace).subset h
  exact (List.dropWhile_suffix isWhitespace).subset (List.mem_reverse.1 hdrop)

/-- A trimmed text has no white space at its ends. -/
theorem trim_ends (s : String) : (∀ c ∈ (trim s).toList.head?, isWhitespace c = false) ∧
    ∀ c ∈ (trim s).toList.getLast?, isWhitespace c = false := by
  have hback : ∀ (l : List Char) (c : Char), c ∈ (l.dropWhile isWhitespace).head? → isWhitespace c = false := by
    intro l c hc
    have := List.head?_dropWhile_not isWhitespace l
    rw [Option.mem_def] at hc
    rw [hc] at this
    simpa using this
  rw [trim_toList]
  constructor
  · intro c hc
    rw [List.head?_reverse] at hc
    apply hback s.toList c
    generalize s.toList.dropWhile isWhitespace = front at hc ⊢
    -- the last of what is left of a reversed list is its last
    obtain ⟨dropped, hdropped⟩ := List.dropWhile_suffix isWhitespace (l := front.reverse)
    have hne : front.reverse.dropWhile isWhitespace ≠ [] := by
      intro hnil
      simp [hnil] at hc
    rw [← List.getLast?_reverse, ← hdropped, List.getLast?_append, hc]
    rfl
  · intro c hc
    rw [List.getLast?_reverse] at hc
    exact hback _ c hc

theorem trim_of_ends (hhead : ∀ c ∈ s.toList.head?, isWhitespace c = false)
    (hlast : ∀ c ∈ s.toList.getLast?, isWhitespace c = false) : trim s = s := by
  have hdrop : ∀ l : List Char, (∀ c ∈ l.head?, isWhitespace c = false) → l.dropWhile isWhitespace = l := by
    intro l hl
    cases l with
    | nil => rfl
    | cons c l => exact List.dropWhile_cons_of_neg (by simp [hl c rfl])
  unfold trim
  rw [hdrop _ hhead, hdrop _ (by rwa [List.head?_reverse]), List.reverse_reverse, String.ofList_toList]

theorem trim_trim (s : String) : trim (trim s) = trim s := trim_of_ends (trim_ends s).1 (trim_ends s).2

theorem Plain.getLast {entry : String} (h : Plain entry) : entry.toList.getLast? ≠ some '\r' := by
  intro hlast
  have hw := (trim_ends entry).2 '\r' (by rw [h.trimmed]; exact hlast)
  exact absurd hw (by decide)

end Trim

/-! ## Lines -/

section Read

variable {entry : String}

theorem stripLineEnding_snoc {line : List Char} (h : line.getLast? ≠ some '\r') :
    stripLineEnding (line ++ ['\n']) = line := by
  unfold stripLineEnding
  simp [h]

theorem stripLineEnding_of_none {line : List Char} (h : '\n' ∉ line) : stripLineEnding line = line := by
  unfold stripLineEnding
  rw [if_neg]
  intro hlast
  exact h (List.mem_of_getLast? hlast)

theorem not_mem_stripLineEnding {text line : List Char} (h : line ∈ splitAfter (· == '\n') text) :
    '\n' ∉ stripLineEnding line := by
  have hfront := Lib.none_of_mem_splitAfter h
  have hnone : '\n' ∉ line.dropLast := fun hmem => by simpa using hfront _ hmem
  unfold stripLineEnding
  split
  · split
    · exact fun hmem => hnone (List.dropLast_subset _ hmem)
    · exact hnone
  · next hlast =>
    intro hmem
    rcases List.eq_nil_or_concat line with rfl | ⟨front, c, rfl⟩
    · cases hmem
    · rw [List.concat_eq_append] at hnone hlast hmem
      rw [List.dropLast_concat] at hnone
      rw [List.getLast?_concat] at hlast
      rcases List.mem_append.1 hmem with hmem | hmem
      · exact hnone hmem
      · exact hlast (congrArg some (List.mem_singleton.1 hmem).symm)

theorem plain_of_mem {value : String} (h : entry ∈ relayEnvList value) : Plain entry := by
  obtain ⟨hmem, hne⟩ := List.mem_filter.1 h
  obtain ⟨line, hline, rfl⟩ := List.mem_map.1 hmem
  obtain ⟨piece, hpiece, rfl⟩ := List.mem_map.1 hline
  refine ⟨of_decide_eq_true hne, trim_trim _, ?_⟩
  intro hmem
  have := mem_trim hmem
  rw [String.toList_ofList] at this
  exact not_mem_stripLineEnding hpiece this

theorem Plain.no_feed (h : Plain entry) : ∀ c ∈ entry.toList, (c == '\n') = false := by
  intro c hc
  rw [beq_eq_false_iff_ne]
  rintro rfl
  exact h.single hc

theorem strLines_cons (h : Plain entry) (rest : List Char) :
    strLines (entry.toList ++ '\n' :: rest) = entry.toList :: strLines rest := by
  unfold strLines
  rw [Lib.splitAfter_line h.no_feed rfl, List.map_cons, stripLineEnding_snoc h.getLast]

theorem strLines_last (h : Plain entry) : strLines entry.toList = [entry.toList] := by
  have hne : entry.toList ≠ [] := by simpa using h.nonempty
  have hsplit : splitAfter (· == '\n') entry.toList = [entry.toList] := by
    have := Lib.splitAfter_append_of_none hne h.no_feed []
    rwa [List.append_nil] at this
  unfold strLines
  rw [hsplit, List.map_singleton, stripLineEnding_of_none h.single]

theorem strLines_intercalate : ∀ entries : List String, (∀ entry ∈ entries, Plain entry) →
    strLines ("\n".intercalate entries).toList = entries.map String.toList
  | [], _ => rfl
  | [entry], h => by
    rw [String.toList_intercalate]
    simpa [List.intercalate] using strLines_last (h entry List.mem_cons_self)
  | entry :: next :: entries, h => by
    have ih := strLines_intercalate (next :: entries) fun e he => h e (List.mem_cons_of_mem _ he)
    have hjoin : ("\n".intercalate (entry :: next :: entries)).toList =
        entry.toList ++ '\n' :: ("\n".intercalate (next :: entries)).toList := by
      simp [String.toList_intercalate, List.intercalate]
    rw [hjoin, strLines_cons (h entry List.mem_cons_self), ih]
    rfl

/-- A list comes back as it was exactly when its entries are plain. -/
theorem relayEnvList_join_iff (entries : List String) :
    relayEnvList ("\n".intercalate entries) = entries ↔ ∀ entry ∈ entries, Plain entry := by
  constructor
  · intro h entry hmem
    rw [← h] at hmem
    exact plain_of_mem hmem
  · intro h
    unfold relayEnvList
    rw [strLines_intercalate entries h, List.map_map]
    have hmap : entries.map ((fun line => trim (String.ofList line)) ∘ String.toList) = entries := by
      conv_rhs => rw [← List.map_id entries]
      apply List.map_congr_left
      intro entry hmem
      simpa using (h entry hmem).trimmed
    rw [hmap, List.filter_eq_self]
    intro entry hmem
    exact decide_eq_true (h entry hmem).nonempty

end Read

/-! ## Through the environment -/

/-- `spawn_apple_container_waypipe_ssh`: the values of the three variables. Nothing is started when a text handed over
has a NUL. -/
def relayEnvironment (s : ContainerSession) : Option (String × String × String) :=
  let values := ("\n".intercalate s.env, "\n".intercalate s.mounts, "\n".intercalate s.runtimeArgs)
  if hasNul values.1 || hasNul values.2.1 || hasNul values.2.2 || (waypipeTuningArgs s .apple).any hasNul then none
  else some values

/-- `PROXY_ENV_KEYS`. -/
def proxyEnvKeys : List String := ["HTTPS_PROXY", "HTTP_PROXY", "ALL_PROXY", "https_proxy", "http_proxy", "all_proxy"]

def hasProxyEnvironment (environment : List String) : Bool :=
  environment.any fun entry => (Lib.splitOnce '=' entry.toList).any fun parts =>
    decide (String.ofList parts.1 ∈ proxyEnvKeys) && decide (trim (String.ofList parts.2) ≠ "")

def containerEnvironment (url : String) : List String :=
  ["HTTP_PROXY", "HTTPS_PROXY", "http_proxy", "https_proxy"].map fun key => key ++ "=" ++ url

/-- `run_container_relay`: `bridge` is the address of the `HostProxyBridge`, when `start` gives one. -/
def bridgedEnvironment (bridge : Option String) (environment : List String) : List String :=
  if hasProxyEnvironment environment then environment
  else environment ++ bridge.toList.flatMap containerEnvironment

/-- Whatever the relay helper reads, its lists are those of the profile, and the container gets the options of the
direct launch. -/
def RelayFaithful (bridge : Option String) (s : ContainerSession) : Prop :=
  ∀ env mounts args, relayEnvironment s = some (env, mounts, args) →
    relayEnvList env = s.env ∧ relayEnvList mounts = s.mounts ∧ relayEnvList args = s.runtimeArgs ∧
      relayRunArgs (bridgedEnvironment bridge (relayEnvList env)) (relayEnvList mounts) (relayEnvList args) =
        directRunArgs s.env s.mounts s.runtimeArgs

/-- A text handed to the helper has a NUL. -/
def HandsNul (s : ContainerSession) : Prop :=
  (∃ entry ∈ s.env ++ s.mounts ++ s.runtimeArgs, hasNul entry = true) ∨ ∃ c ∈ s.waypipeCompress, hasNul (trim c) = true

/-- The environment leaves `XDG_RUNTIME_DIR` alone, or says first what the relay helper says itself. -/
def KeepsRuntimeDir (env : List String) : Prop :=
  env.any setsRuntimeDir = false ∨
    ∃ rest, env = (runtimeDirKey ++ defaultGuestRuntimeDir) :: rest ∧ rest.any setsRuntimeDir = false

section Faithful

variable {s : ContainerSession}

theorem hasNul_intercalate (entries : List String) :
    hasNul ("\n".intercalate entries) = true ↔ ∃ entry ∈ entries, hasNul entry = true := by
  have hsep : ∀ l : List (List Char), (∃ c ∈ List.intercalate ['\n'] l, c.toNat = 0) ↔
    ∃ x ∈ l, ∃ c ∈ x, c.toNat = 0 := by
    intro l
    induction l with
    | nil => simp [List.intercalate]
    | cons x l ih =>
      cases l with
      | nil => simp [List.intercalate]
      | cons y l =>
        have hjoin : List.intercalate ['\n'] (x :: y :: l) = x ++ '\n' :: List.intercalate ['\n'] (y :: l) := by
          simp [List.intercalate]
        rw [hjoin]
        simp only [List.mem_append, List.mem_cons] at ih ⊢
        constructor
        · rintro ⟨c, hc | rfl | hc, h0⟩
          · exact ⟨x, .inl rfl, c, hc, h0⟩
          · exact absurd h0 (by decide)
          · obtain ⟨z, hz, hc⟩ := ih.1 ⟨c, hc, h0⟩
            exact ⟨z, .inr hz, hc⟩
        · rintro ⟨z, rfl | hz, c, hc, h0⟩
          · exact ⟨c, .inl hc, h0⟩
          · obtain ⟨c', hc', h0'⟩ := ih.2 ⟨z, hz, c, hc, h0⟩
            exact ⟨c', .inr (.inr hc'), h0'⟩
  simp only [hasNul, List.any_eq_true, decide_eq_true_eq, String.toList_intercalate]
  rw [show "\n".toList = ['\n'] from rfl, hsep]
  simp

theorem envOptions_inj {l l' : List String} (h : envOptions l = envOptions l') : l = l' := by
  induction l generalizing l' with
  | nil =>
    cases l' with
    | nil => rfl
    | cons e l' => cases h
  | cons e l ih =>
    cases l' with
    | nil => cases h
    | cons e' l' =>
      injection h with _ h
      injection h with he h
      rw [he, ih h]

/-- The options are the same when `XDG_RUNTIME_DIR` is left alone, and only then. -/
theorem relayRunArgs_iff (env mounts args : List String) :
    relayRunArgs env mounts args = directRunArgs env mounts args ↔ KeepsRuntimeDir env := by
  unfold relayRunArgs directRunArgs KeepsRuntimeDir
  rw [List.append_cancel_right_eq, List.append_cancel_right_eq]
  cases hset : env.any setsRuntimeDir with
  | false =>
    have hall : env.filter (fun entry => !setsRuntimeDir entry) = env := by
      rw [List.filter_eq_self]
      intro entry hmem
      simpa using List.any_eq_false.1 hset entry hmem
    simp [hall]
  | true =>
    have hjoin : ∀ l : List String, envOptions [runtimeDirKey ++ defaultGuestRuntimeDir] ++ envOptions l =
        envOptions ((runtimeDirKey ++ defaultGuestRuntimeDir) :: l) := fun l => rfl
    rw [if_pos rfl, List.nil_append, hjoin]
    constructor
    · intro h
      refine .inr ⟨_, (envOptions_inj h).symm, ?_⟩
      rw [List.any_eq_false]
      intro entry hmem
      simpa using List.of_mem_filter hmem
    · rintro (h | ⟨rest, rfl, hrest⟩)
      · cases h
      · have hall : rest.filter (fun entry => !setsRuntimeDir entry) = rest := by
          rw [List.filter_eq_self]
          intro entry hmem
          simpa using List.any_eq_false.1 hrest entry hmem
        rw [List.filter_cons_of_neg (by decide), hall]

theorem setsRuntimeDir_container {url entry : String} (h : entry ∈ containerEnvironment url) :
    setsRuntimeDir entry = false := by
  simp only [containerEnvironment, List.map_cons, List.map_nil, List.mem_cons, List.not_mem_nil, or_false] at h
  rcases h with rfl | rfl | rfl | rfl <;> simp [setsRuntimeDir, runtimeDirKey, List.isPrefixOf]

/-- Beside a bridge they are the same only when the profile names a proxy of its own. -/
theorem relayRunArgs_bridged (bridge : Option String) (env mounts args : List String) :
    relayRunArgs (bridgedEnvironment bridge env) mounts args = directRunArgs env mounts args ↔
      KeepsRuntimeDir env ∧ (bridge = none ∨ hasProxyEnvironment env = true) := by
  unfold bridgedEnvironment
  by_cases hproxy : hasProxyEnvironment env = true
  · simp [hproxy, relayRunArgs_iff]
  rw [if_neg hproxy]
  cases bridge with
  | none => simp [relayRunArgs_iff]
  | some url =>
    refine iff_of_false (fun h => ?_) (by simp [hproxy])
    have hbridge : (containerEnvironment url).filter (fun entry => !setsRuntimeDir entry) = containerEnvironment url :=
      List.filter_eq_self.2 fun entry hmem => by simp [setsRuntimeDir_container hmem]
    have hdir : setsRuntimeDir (runtimeDirKey ++ defaultGuestRuntimeDir) = true := by decide
    rw [Option.toList_some, List.flatMap_singleton, relayRunArgs, directRunArgs, List.append_cancel_right_eq,
      List.append_cancel_right_eq, List.filter_append, hbridge] at h
    -- the variables of the bridge are too many
    have hlonger (l : List String)
        (hl : (l.filter fun entry => !setsRuntimeDir entry) = env.filter fun entry => !setsRuntimeDir entry) :
        envOptions ((runtimeDirKey ++ defaultGuestRuntimeDir) ::
          (env.filter (fun entry => !setsRuntimeDir entry) ++ containerEnvironment url)) ≠ envOptions l := by
      intro h
      have hfilter := congrArg (List.filter fun entry => !setsRuntimeDir entry) (envOptions_inj h)
      rw [List.filter_cons_of_neg (by simp [hdir]), List.filter_append, hbridge, hl] at hfilter
      simp [containerEnvironment] at hfilter
    split at h
    · exact hlonger env rfl h
    · exact hlonger (_ :: env) (List.filter_cons_of_neg (by simp [hdir])) h

theorem hasNul_toString (n : Nat) : hasNul (toString n) = false := by
  unfold hasNul
  rw [List.any_eq_false]
  intro c hc
  rw [Nat.toString_eq_repr, Nat.toList_repr] at hc
  have hdigit := Nat.isDigit_of_mem_toDigits (by decide) (by decide) hc
  simp only [decide_eq_true_eq]
  intro h0
  obtain rfl : c = Char.ofNat 0 := by rw [← h0, Char.ofNat_toNat]
  exact absurd hdigit (by decide)

/-- Of Waypipe's options only the compression is a text of the profile. -/
theorem hasNul_waypipeTuningArgs : (waypipeTuningArgs s .apple).any hasNul = true ↔
    ∃ c ∈ s.waypipeCompress, hasNul (trim c) = true := by
  have hthreads : (s.waypipeThreads.toList.flatMap fun n => ["--threads", toString n]).any hasNul = false := by
    cases s.waypipeThreads with
    | none => rfl
    | some n =>
      have hkey : hasNul "--threads" = false := by decide
      show (hasNul "--threads" || (hasNul (toString n) || false)) = false
      rw [hkey, hasNul_toString]
      rfl
  have hnone : hasNul "none" = false := by decide
  have hempty : hasNul "" = false := by decide
  unfold waypipeTuningArgs
  rw [List.any_append, hthreads, Bool.or_false]
  cases hc : s.waypipeCompress with
  | none => simp [hnone, show hasNul "--compress" = false by decide]
  | some c =>
    by_cases hblank : trim c = ""
    · simp [Option.filter, hblank, hnone, hempty, show hasNul "--compress" = false by decide]
    · simp [Option.filter, hblank, show hasNul "--compress" = false by decide]

theorem relayEnvironment_eq_none : relayEnvironment s = none ↔ HandsNul s := by
  unfold relayEnvironment HandsNul
  dsimp only
  rw [ite_eq_left_iff, ← hasNul_waypipeTuningArgs]
  simp only [reduceCtorEq, imp_false, not_not, Bool.or_eq_true, hasNul_intercalate, List.mem_append, or_and_right,
    exists_or]

theorem relayEnvironment_eq_some {values : String × String × String} (h : relayEnvironment s = some values) :
    values = ("\n".intercalate s.env, "\n".intercalate s.mounts, "\n".intercalate s.runtimeArgs) := by
  unfold relayEnvironment at h
  dsimp only at h
  split at h
  · cases h
  · exact (Option.some.inj h).symm

/-- The relay gives the container what the profile says exactly when every entry is plain, `XDG_RUNTIME_DIR` is left
alone and no bridge adds its variables, unless the relay is not started at all. -/
theorem relayFaithful_iff (bridge : Option String) (s : ContainerSession) : RelayFaithful bridge s ↔
    HandsNul s ∨ (∀ entry ∈ s.env ++ s.mounts ++ s.runtimeArgs, Plain entry) ∧ KeepsRuntimeDir s.env ∧
      (bridge = none ∨ hasProxyEnvironment s.env = true) := by
  rw [← relayEnvironment_eq_none]
  constructor
  · intro h
    cases hstart : relayEnvironment s with
    | none => exact .inl rfl
    | some values =>
      obtain rfl := relayEnvironment_eq_some hstart
      obtain ⟨henv, hmounts, hargs, hoptions⟩ := h _ _ _ hstart
      rw [henv, hmounts, hargs] at hoptions
      refine .inr ⟨?_, (relayRunArgs_bridged _ _ _ _).1 hoptions⟩
      intro entry hmem
      rcases List.mem_append.1 hmem with hmem | hmem
      · rcases List.mem_append.1 hmem with hmem | hmem
        · exact (relayEnvList_join_iff _).1 henv entry hmem
        · exact (relayEnvList_join_iff _).1 hmounts entry hmem
      · exact (relayEnvList_join_iff _).1 hargs entry hmem
  · rintro (hnone | ⟨hplain, hkeeps⟩) env mounts args hstart
    · rw [hnone] at hstart
      cases hstart
    · obtain ⟨rfl, rfl, rfl⟩ := relayEnvironment_eq_some hstart
      have henv := (relayEnvList_join_iff s.env).2 fun e he => hplain e (by simp [he])
      have hmounts := (relayEnvList_join_iff s.mounts).2 fun e he => hplain e (by simp [he])
      have hargs := (relayEnvList_join_iff s.runtimeArgs).2 fun e he => hplain e (by simp [he])
      rw [henv, hmounts, hargs]
      exact ⟨rfl, rfl, rfl, (relayRunArgs_bridged _ _ _ _).2 hkeeps⟩

end Faithful

/-- An accepted profile with a line break in a variable. -/
def brokenLineProfile : ContainerSession where
  name := "Editor"
  image := "editor"
  env := ["A=1\nB=2"]

theorem relay_splits_entry : validateSession brokenLineProfile = .ok () ∧
    relayEnvironment brokenLineProfile = some ("A=1\nB=2", "", "") ∧
    relayEnvList "A=1\nB=2" = ["A=1", "B=2"] ∧ ¬ RelayFaithful none brokenLineProfile := by
  have henv : relayEnvironment brokenLineProfile = some ("A=1\nB=2", "", "") := by decide
  have hread : relayEnvList "A=1\nB=2" = ["A=1", "B=2"] := by decide
  refine ⟨by decide, henv, hread, ?_⟩
  intro h
  have hlists := (h _ _ _ henv).1
  rw [hread] at hlists
  exact absurd hlists (by decide)

end CocoaWay.Sessions
