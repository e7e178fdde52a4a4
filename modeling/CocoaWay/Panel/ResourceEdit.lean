import CocoaWay.Lib.Options
import CocoaWay.Panel.ResourceArgs
import CocoaWay.Sessions.RelayLists
import Mathlib.Data.List.TakeDrop
import Mathlib.Data.List.TakeWhile

/-!
# Editing the resources of a profile

* `isDocker`, `aliases`, `spells`, `grammar` : what the runtimes accept as an option that sets a resource;
* `rewriting`, `unrelatedArgs_eq` : the loop of the rewriter as a grammar of its own;
* `Accepts`, `configured_ok_iff` : the checks, and the arguments that pass them;
* `Edited` : what an edit promises; `Plain` : when it keeps it, `edited_iff`.
-/

namespace CocoaWay.Panel
open Lib Launch Control
open Sessions (trim_trim)

/-! ## What the runtimes accept -/

def dockerNames : List String := ["docker", "orb", "orbstack"]

def appleNames : List String := ["container", "apple", "apple-container"]

/-- The runtime takes the options of Docker. -/
def isDocker (runtime : String) : Bool := trim runtime ∈ dockerNames

/-- The names of the same runtime. -/
def aliases (runtime : String) : List String :=
  if trim runtime ∈ dockerNames then dockerNames else if trim runtime ∈ appleNames then appleNames else []

/-- The short option of a resource; with Docker `-c` sets the CPU shares. -/
def Resource.short (docker : Bool) : Resource → Option String
  | cpus => if docker then none else some "-c"
  | memory => some "-m"
  | shm | platform => none

/-- The long option, with a `=` and its value or alone, or the short one, with its value attached or alone. -/
def spells (docker : Bool) (r : Resource) (argument : String) : Bool :=
  argument = r.flag || startsWith argument (r.flag ++ "=") || (r.short docker).any (startsWith argument)

/-- The short option with its value attached, and no `=` between them. -/
def attached (docker : Bool) (r : Resource) (argument : String) : Bool :=
  (r.short docker).any fun short => startsWith argument short && flagOf argument ≠ short

/-- The options of the editor; no value of theirs begins with a dash. -/
def grammar (docker : Bool) : Grammar String where
  dash argument := startsWith argument "-"
  option argument := Resource.all.any (spells docker · argument) || flagOf argument = "--rosetta"
  bare argument := Resource.all.any fun r => argument = r.flag || r.short docker = some argument

/-! ## The loop of the rewriter -/

def rewriting (docker : Bool) : Grammar String where
  dash argument := startsWith argument "-"
  option argument := controlled docker (flagOf argument) || flagOf argument = "--rosetta"
  bare argument := controlled docker (flagOf argument) && !argument.toList.contains '='

variable {docker docker' : Bool} {a f v runtime : String} {l original result : List String} {r : Resource}
  {values : Resource → String} {rosetta : Bool}

theorem controlled_rosetta (docker : Bool) : controlled docker "--rosetta" = false := by cases docker <;> decide

theorem unrelatedArgs_eq (docker : Bool) (l : List String) : unrelatedArgs docker l = (rewriting docker).strip l := by
  refine Grammar.walk (g := rewriting docker) (P := fun l => unrelatedArgs docker l = (rewriting docker).strip l) rfl
    ?_ ?_ ?_ l
  · intro a rest ha ih
    rw [Grammar.strip_keep ha, ← ih]
    simp only [rewriting, Bool.or_eq_false_iff, decide_eq_false_iff_not] at ha
    cases rest <;> simp [unrelatedArgs, ha]
  · intro a rest ha hv ih
    rw [Grammar.strip_drop ha hv, ← ih]
    simp only [rewriting, Bool.or_eq_true, decide_eq_true_eq] at ha hv
    rcases ha with ha | ha
    · cases rest with
      | nil => simp [unrelatedArgs, ha]
      | cons v rest =>
        have htake : (!a.toList.contains '=' && !startsWith v "-") = false := by
          rcases hv with hv | hv
          · rw [ha, Bool.true_and] at hv
            rw [hv, Bool.false_and]
          · rw [hv v rfl, Bool.not_true, Bool.and_false]
        simp only [unrelatedArgs, ha, htake]
        rfl
    · cases rest <;> simp [unrelatedArgs, ha, controlled_rosetta]
  · intro a v rest ha hb hv ih
    rw [Grammar.strip_skip ha hb hv, ← ih]
    simp only [rewriting, Bool.and_eq_true, Bool.not_eq_true'] at hb hv
    have htake : (!a.toList.contains '=' && !startsWith v "-") = true := by rw [hb.2, hv]; rfl
    simp only [unrelatedArgs, hb.1, htake]
    rfl

/-! ## Spellings -/

theorem startsWith_iff {start : String} : startsWith a start = true ↔ ∃ rest, a.toList = start.toList ++ rest := by
  unfold startsWith
  rw [List.isPrefixOf_iff_prefix]
  exact ⟨fun ⟨rest, h⟩ => ⟨rest, h.symm⟩, fun ⟨rest, h⟩ => ⟨rest, h.symm⟩⟩

/-- The flag of an argument is the argument, or ends at a `=`. -/
theorem flagOf_eq_iff (hf : '=' ∉ f.toList) : flagOf a = f ↔ a = f ∨ startsWith a (f ++ "=") = true := by
  have htake : ∀ rest, (f.toList ++ rest).takeWhile (· != '=') = f.toList ++ rest.takeWhile (· != '=') := by
    intro rest
    refine List.takeWhile_append_of_pos fun c hc => ?_
    rw [bne_iff_ne]
    rintro rfl
    exact hf hc
  rw [startsWith_iff]
  unfold flagOf
  constructor
  · intro h
    have hfront : a.toList.takeWhile (· != '=') = f.toList := by rw [← h, String.toList_ofList]
    have hsplit := List.takeWhile_append_dropWhile (p := (· != '=')) (l := a.toList)
    rw [hfront] at hsplit
    cases hrest : a.toList.dropWhile (· != '=') with
    | nil =>
      left
      rw [hrest, List.append_nil] at hsplit
      exact String.toList_inj.1 hsplit.symm
    | cons c rest =>
      have hc : c = '=' := by
        have hhead := List.head_dropWhile_not (· != '=') (l := a.toList) (by rw [hrest]; exact List.cons_ne_nil c rest)
        simpa [hrest] using hhead
      right
      refine ⟨rest, ?_⟩
      rw [hrest, hc] at hsplit
      rw [← hsplit, String.toList_append, List.append_assoc]
      rfl
  · rintro (rfl | ⟨rest, hrest⟩)
    · have hall := htake []
      rw [List.append_nil, List.takeWhile_nil, List.append_nil] at hall
      rw [hall, String.ofList_toList]
    · rw [hrest, String.toList_append, List.append_assoc, htake]
      simp

theorem not_mem_flag (r : Resource) : '=' ∉ r.flag.toList := by cases r <;> decide

theorem flagOf_flag (r : Resource) : flagOf r.flag = r.flag := (flagOf_eq_iff (not_mem_flag r)).2 (.inl rfl)

theorem mem_all (r : Resource) : r ∈ Resource.all := by cases r <;> decide

theorem controlled_flag (docker : Bool) (r : Resource) : controlled docker r.flag = true := by
  cases r <;> cases docker <;> decide

variable {s : String} {name : String} {rs : List Resource}

theorem not_mem_short (h : r.short docker = some s) : '=' ∉ s.toList := by
  cases r <;> cases docker <;> cases h <;> decide

/-- The rewriter takes what is spelled without an attachment. -/
theorem spells_iff : spells docker r a = true ↔
    flagOf a = r.flag ∨ (∃ s, r.short docker = some s ∧ flagOf a = s) ∨ attached docker r a = true := by
  unfold spells attached
  rw [Bool.or_eq_true, Bool.or_eq_true, decide_eq_true_eq, ← flagOf_eq_iff (not_mem_flag r)]
  refine or_congr_right ?_
  cases hs : r.short docker with
  | none => simp
  | some s =>
    have hflag := flagOf_eq_iff (a := a) (not_mem_short hs)
    have hstarts : flagOf a = s → startsWith a s = true := by
      rw [hflag, startsWith_iff, startsWith_iff]
      rintro (rfl | ⟨rest, h⟩)
      · exact ⟨[], (List.append_nil _).symm⟩
      · refine ⟨'=' :: rest, ?_⟩
        rw [h, String.toList_append, List.append_assoc]
        rfl
    by_cases heq : flagOf a = s
    · simp [heq, hstarts heq]
    · simp [heq, Ne.symm heq]

theorem short_cases (h : r.short docker = some s) : s = "-m" ∨ s = "-c" := by
  cases r <;> cases docker <;> cases h <;> simp

/-- An attachment begins with a dash, and its flag is no option's. -/
theorem attached_plain (h : attached docker r a = true) :
    startsWith a "-" = true ∧ flagOf a ≠ "--rosetta" ∧ ∀ docker', controlled docker' (flagOf a) = false := by
  obtain ⟨s, hs, h⟩ := Option.any_eq_true _ _ |>.1 h
  rw [Bool.and_eq_true, decide_eq_true_eq, startsWith_iff] at h
  obtain ⟨⟨rest, hrest⟩, hne⟩ := h
  obtain ⟨c, hc, hshort⟩ : ∃ c, (c = 'm' ∨ c = 'c') ∧ s.toList = ['-', c] := by
    rcases short_cases hs with rfl | rfl
    · exact ⟨'m', .inl rfl, rfl⟩
    · exact ⟨'c', .inr rfl, rfl⟩
  rw [hshort, List.cons_append, List.cons_append, List.nil_append] at hrest
  have hflag : (flagOf a).toList = '-' :: c :: rest.takeWhile (· != '=') := by
    unfold flagOf
    rw [String.toList_ofList, hrest]
    rcases hc with rfl | rfl <;> simp
  have hne' : (flagOf a).toList ≠ ['-', c] := fun heq => hne (String.toList_inj.1 (heq.trans hshort.symm))
  have hlong {t : String} (u : List Char) (ht : t.toList = '-' :: '-' :: u) : flagOf a ≠ t := by
    rintro rfl
    rw [hflag] at ht
    rcases hc with rfl | rfl <;> cases ht
  have halone {t : String} (d : Char) (ht : t.toList = ['-', d]) : flagOf a ≠ t := by
    rintro rfl
    rw [hflag, List.cons.injEq, List.cons.injEq] at ht
    obtain ⟨-, rfl, hnil⟩ := ht
    exact hne' (by rw [hflag, hnil])
  refine ⟨startsWith_iff.2 ⟨_, hrest⟩, hlong _ rfl, fun docker' => ?_⟩
  unfold controlled
  simp only [List.mem_cons, List.not_mem_nil, hlong _ (t := "--cpus") rfl, hlong _ (t := "--memory") rfl,
    halone 'm' (t := "-m") rfl, hlong _ (t := "--shm-size") rfl, hlong _ (t := "--platform") rfl,
    halone 'c' (t := "-c") rfl, or_self, decide_false, Bool.false_and, Bool.or_false]

/-! ## What is left and what is added -/

/-- An option that the rewriter does not take as one of `docker'` has its value attached. -/
theorem attached_of_spells (h : spells docker r a = true) (hdocker : docker' = true → docker = true)
    (hno : controlled docker' (flagOf a) = false) : attached docker r a = true := by
  rcases spells_iff.1 h with hflag | ⟨s, hs, hflag⟩ | h
  · rw [hflag, controlled_flag] at hno
    cases hno
  · exfalso
    rw [hflag] at hno
    cases r <;> cases docker <;> cases docker' <;> cases hs <;> revert hno hdocker <;> decide
  · exact h

theorem spells_of_attached (h : attached docker r a = true) : spells docker r a = true :=
  spells_iff.2 (.inr (.inr h))

theorem controlled_iff : controlled docker f = true ↔ ∃ r : Resource, f = r.flag ∨ r.short docker = some f := by
  constructor
  · intro h
    simp only [controlled, Bool.or_eq_true, decide_eq_true_eq, List.mem_cons, List.not_mem_nil, or_false,
      Bool.and_eq_true, Bool.not_eq_true'] at h
    rcases h with (rfl | rfl | rfl | rfl | rfl) | ⟨rfl, rfl⟩
    · exact ⟨.cpus, .inl rfl⟩
    · exact ⟨.memory, .inl rfl⟩
    · exact ⟨.memory, .inr rfl⟩
    · exact ⟨.shm, .inl rfl⟩
    · exact ⟨.platform, .inl rfl⟩
    · exact ⟨.cpus, .inr rfl⟩
  · rintro ⟨r, rfl | hs⟩
    · exact controlled_flag docker r
    · cases r <;> cases docker <;> cases hs <;> decide

theorem controlled_mono (hdocker : docker' = true → docker = true) (h : controlled docker f = true) :
    controlled docker' f = true := by
  cases docker with
  | true =>
    have hc : f ∈ ["--cpus", "--memory", "-m", "--shm-size", "--platform"] := by simpa [controlled] using h
    simp [controlled, hc]
  | false =>
    cases docker' with
    | true => cases hdocker rfl
    | false => exact h

theorem flagOf_of_controlled (h : controlled docker f = true) : flagOf f = f := by
  obtain ⟨r, rfl | hs⟩ := controlled_iff.1 h
  · exact flagOf_flag r
  · exact (flagOf_eq_iff (not_mem_short hs)).2 (.inl rfl)

/-- The arguments that take a value are the flags of the rewriter. -/
theorem bare_eq (docker : Bool) (a : String) : (grammar docker).bare a = controlled docker a := by
  rw [Bool.eq_iff_iff, controlled_iff]
  simp only [grammar, List.any_eq_true, Bool.or_eq_true, decide_eq_true_eq]
  exact ⟨fun ⟨r, _, h⟩ => ⟨r, h⟩, fun ⟨r, h⟩ => ⟨r, mem_all r, h⟩⟩

theorem rewriting_bare_eq (docker : Bool) (a : String) : (rewriting docker).bare a = controlled docker a := by
  rw [Bool.eq_iff_iff]
  simp only [rewriting, Bool.and_eq_true, Bool.not_eq_true']
  constructor
  · rintro ⟨h, hno⟩
    have hself : flagOf a = a := by
      unfold flagOf
      rw [List.takeWhile_eq_self_iff.2, String.ofList_toList]
      intro c hc
      rw [bne_iff_ne]
      rintro rfl
      rw [List.contains_iff_mem.2 hc] at hno
      cases hno
    rwa [hself] at h
  · intro h
    rw [flagOf_of_controlled h]
    refine ⟨h, ?_⟩
    obtain ⟨r, rfl | hs⟩ := controlled_iff.1 h
    · cases r <;> decide
    · rcases short_cases hs with rfl | rfl <;> decide

theorem mem_unrelatedArgs (h : a ∈ unrelatedArgs docker l) :
    a ∈ l ∧ controlled docker (flagOf a) = false ∧ flagOf a ≠ "--rosetta" := by
  rw [unrelatedArgs_eq] at h
  obtain ⟨hmem, hoption⟩ := Grammar.mem_strip h
  simp only [rewriting, Bool.or_eq_false_iff, decide_eq_false_iff_not] at hoption
  exact ⟨hmem, hoption⟩

/-- A flag is not found among arguments with other flags. -/
theorem runtimeArgValue_append (hf : '=' ∉ f.toList) (h : ∀ a ∈ l, flagOf a ≠ f) (l' : List String) :
    runtimeArgValue f (l ++ l') = runtimeArgValue f l' := by
  induction l with
  | nil => rfl
  | cons a l ih =>
    have ha := h a List.mem_cons_self
    rw [ne_eq, flagOf_eq_iff hf, not_or] at ha
    rw [List.cons_append, runtimeArgValue, if_neg ha.1, if_neg ha.2]
    exact ih fun b hb => h b (List.mem_cons_of_mem a hb)

/-- A value that begins with no dash has no flag. -/
theorem flagOf_value (hv : startsWith v "-" = false) (hf : startsWith f "-" = true) (hflag : '=' ∉ f.toList) :
    flagOf v ≠ f := by
  intro heq
  rw [startsWith_iff] at hf
  obtain ⟨rest, hrest⟩ := hf
  have hstarts : startsWith v "-" = true := by
    rw [startsWith_iff]
    rcases (flagOf_eq_iff hflag).1 heq with rfl | h
    · exact ⟨rest, hrest⟩
    · obtain ⟨back, hback⟩ := startsWith_iff.1 h
      refine ⟨rest ++ "=".toList ++ back, ?_⟩
      rw [hback, String.toList_append, hrest]
      simp only [List.append_assoc]
  rw [hstarts] at hv
  cases hv

/-! ## The checks -/

/-- The values that are taken, and whether Rosetta is on. -/
structure Accepts (runtime : String) (values : Resource → String) (rosetta : Bool) : Prop where
  cpus : values .cpus = "" ∨ validCpus runtime (values .cpus) = true
  memory : values .memory = "" ∨ resourceSizeBytes (values .memory) ≠ none
  shm : values .shm = "" ∨ resourceSizeBytes (values .shm) ≠ none
  within : ¬ ((resourceSizeBytes (values .memory)).any fun memory =>
    (resourceSizeBytes (values .shm)).any (memory < ·)) = true
  platform : values .platform ∈ ["", "linux/arm64", "linux/amd64"]
  rosetta : rosetta = true → runtime ∈ appleNames

def rosettaFlag (rosetta : Bool) : List String := if rosetta then ["--rosetta"] else []

theorem configured_ok_iff : configuredResourceArgs original runtime values rosetta = .ok result ↔
    Accepts runtime (fun r => trim (values r)) rosetta ∧
      result = unrelatedArgs (runtime = "docker") original ++ settings (fun r => trim (values r)) ++
        rosettaFlag rosetta := by
  unfold configuredResourceArgs
  dsimp only
  constructor
  · intro h
    split at h
    · cases h
    · next hcpus =>
      split at h
      · cases h
      · next hmemory =>
        split at h
        · cases h
        · next hshm =>
          split at h
          · cases h
          · next hwithin =>
            split at h
            · cases h
            · next hplatform =>
              split at h
              · cases h
              · next hrosetta =>
                cases h
                refine ⟨⟨?_, ?_, ?_, hwithin, Decidable.not_not.1 hplatform, ?_⟩, rfl⟩
                · simpa [Decidable.or_iff_not_imp_left] using hcpus
                · simpa [Decidable.or_iff_not_imp_left] using hmemory
                · simpa [Decidable.or_iff_not_imp_left] using hshm
                · intro hon
                  by_contra hno
                  exact hrosetta ⟨hon, hno⟩
  · rintro ⟨h, rfl⟩
    rw [if_neg, if_neg, if_neg, if_neg h.within, if_neg (not_not_intro h.platform), if_neg]
    · rfl
    · rintro ⟨hon, hno⟩
      exact hno (h.rosetta hon)
    · rintro ⟨hne, hnone⟩
      exact (h.shm.resolve_left hne) hnone
    · rintro ⟨hne, hnone⟩
      exact (h.memory.resolve_left hne) hnone
    · rintro ⟨hne, hno⟩
      rw [h.cpus.resolve_left hne] at hno
      cases hno

theorem digit_dash : isAsciiDigit '-' = false := by decide

theorem decimal_digits {digits : List Char} (hne : digits ≠ []) (h : digits.all isAsciiDigit = true) :
    decimal digits = some (digitsValue digits, .ofNat 0) := by
  rw [List.all_eq_true] at h
  unfold decimal
  rw [List.span_eq_takeWhile_dropWhile, List.takeWhile_eq_self_iff.2 h, List.dropWhile_eq_nil_iff.2 h]
  dsimp only
  rw [if_neg fun hnil => hne hnil.1, List.append_nil]
  rfl

theorem roundsPositive_ofNat (m e : Nat) :
    roundsPositive m (.ofNat e) = (decide (0 < m) && decide (m * 10 ^ e < 2 ^ 1024 - 2 ^ 970)) := rfl

/-- A positive whole number is a positive number. -/
theorem isPositiveF64_of_u32 (h : isPositiveU32 s = true) : isPositiveF64 s = true := by
  unfold isPositiveU32 at h
  simp only [Bool.and_eq_true, Bool.not_eq_true', decide_eq_true_eq] at h
  obtain ⟨⟨⟨hne, hall⟩, hpos⟩, hlt⟩ := h
  have hnonempty : unsigned s.toList ≠ [] := fun hnil => by
    rw [hnil] at hne
    cases hne
  have hbound : digitsValue (unsigned s.toList) * 10 ^ 0 < 2 ^ 1024 - 2 ^ 970 := by
    rw [Nat.pow_zero, Nat.mul_one]
    exact hlt.trans (by decide +kernel)
  unfold isPositiveF64
  rw [decimal_digits hnonempty hall, Option.any_some]
  dsimp only
  rw [roundsPositive_ofNat, Bool.and_eq_true, decide_eq_true_eq, decide_eq_true_eq]
  exact ⟨hpos, hbound⟩

theorem toList_of_dash (h : startsWith s "-" = true) : ∃ rest, s.toList = '-' :: rest := startsWith_iff.1 h

theorem Accepts.value (h : Accepts runtime values rosetta) (hr : values r ≠ "") :
    startsWith (values r) "-" = false := by
  by_contra hdash
  obtain ⟨rest, hrest⟩ := toList_of_dash (Bool.not_eq_false _ ▸ hdash)
  have hsize (hs : resourceSizeBytes (values r) ≠ none) : False := by
    refine hs ?_
    unfold resourceSizeBytes
    rw [hrest, List.span_eq_takeWhile_dropWhile]
    rfl
  cases r with
  | cpus =>
    have hcpus := h.cpus.resolve_left hr
    unfold validCpus at hcpus
    split at hcpus
    · unfold isPositiveF64 at hcpus
      have hnone : decimal (unsigned ('-' :: rest)) = none := rfl
      rw [hrest, hnone] at hcpus
      cases hcpus
    · unfold isPositiveU32 at hcpus
      rw [hrest] at hcpus
      simp [unsigned, digit_dash] at hcpus
  | memory => exact hsize (h.memory.resolve_left hr)
  | shm => exact hsize (h.shm.resolve_left hr)
  | platform =>
    have hplatform := h.platform
    simp only [List.mem_cons, List.not_mem_nil, or_false] at hplatform
    rcases hplatform with heq | heq | heq
    · exact hr heq
    · rw [heq] at hrest
      cases hrest
    · rw [heq] at hrest
      cases hrest

/-! ## Reading back -/

theorem flag_dash (r : Resource) : startsWith r.flag "-" = true := by cases r <;> decide

/-- The resources with a value. -/
def given (values : Resource → String) : List Resource := Resource.all.filter fun r => values r ≠ ""

theorem mem_given : r ∈ given values ↔ values r ≠ "" := by simp [given, mem_all]

theorem settings_eq (values : Resource → String) :
    settings values = (given values).flatMap fun r => [r.flag, values r] := by
  unfold settings given
  generalize Resource.all = rs
  induction rs with
  | nil => rfl
  | cons r rs ih =>
    rw [List.flatMap_cons, ih]
    by_cases hempty : values r = ""
    · rw [if_pos hempty, List.filter_cons_of_neg (by simp [hempty]), List.nil_append]
    · rw [if_neg hempty, List.filter_cons_of_pos (by simp [hempty]), List.flatMap_cons]

/-- The first of the settings of a resource is what is read. -/
theorem runtimeArgValue_pairs (hvalues : ∀ r ∈ rs, startsWith (values r) "-" = false) (r : Resource)
    (l : List String) : runtimeArgValue r.flag ((rs.flatMap fun r => [r.flag, values r]) ++ l) =
      if r ∈ rs then some (values r) else runtimeArgValue r.flag l := by
  induction rs with
  | nil => rfl
  | cons r' rs ih =>
    rw [List.flatMap_cons, List.append_assoc]
    by_cases heq : r = r'
    · subst heq
      rw [if_pos List.mem_cons_self]
      simp [runtimeArgValue]
    · have hflag : flagOf r'.flag ≠ r.flag := by
        rw [flagOf_flag]
        revert heq
        cases r <;> cases r' <;> decide
      have hvalue : flagOf (values r') ≠ r.flag :=
        flagOf_value (hvalues r' List.mem_cons_self) (flag_dash r) (not_mem_flag r)
      have hskip : ∀ a ∈ [r'.flag, values r'], flagOf a ≠ r.flag := by
        intro a ha
        rcases List.mem_cons.1 ha with rfl | ha
        · exact hflag
        · rw [List.mem_singleton.1 ha]
          exact hvalue
      rw [runtimeArgValue_append (not_mem_flag r) hskip, ih fun r hr => hvalues r (List.mem_cons_of_mem _ hr)]
      simp [heq]

theorem runtimeArgValue_rosetta (hf : '=' ∉ f.toList) (hne : f ≠ "--rosetta") (rosetta : Bool) :
    runtimeArgValue f (rosettaFlag rosetta) = none := by
  have happend := runtimeArgValue_append (l := rosettaFlag rosetta) hf ?_ []
  · rwa [List.append_nil] at happend
  · intro a ha
    unfold rosettaFlag at ha
    split at ha
    · rw [List.mem_singleton.1 ha]
      exact fun heq => hne (heq.symm.trans (by decide))
    · cases ha

theorem runtimeArgValue_short (hvalues : ∀ r ∈ given values, startsWith (values r) "-" = false)
    (hs : r.short docker = some s) (rosetta : Bool) :
    runtimeArgValue s (settings values ++ rosettaFlag rosetta) = none := by
  have hdash : startsWith s "-" = true := by rcases short_cases hs with rfl | rfl <;> decide
  have hskip : ∀ a ∈ settings values, flagOf a ≠ s := by
    intro a ha
    rw [settings_eq] at ha
    obtain ⟨r', hr', ha⟩ := List.mem_flatMap.1 ha
    rcases List.mem_cons.1 ha with rfl | ha
    · rw [flagOf_flag]
      rcases short_cases hs with rfl | rfl <;> cases r' <;> decide
    · rw [List.mem_singleton.1 ha]
      exact flagOf_value (hvalues r' hr') hdash (not_mem_short hs)
  rw [runtimeArgValue_append (not_mem_short hs) hskip]
  refine runtimeArgValue_rosetta (not_mem_short hs) ?_ rosetta
  rcases short_cases hs with rfl | rfl <;> decide

/-! ## What an edit promises -/

structure Edited (original : List String) (runtime : String) (values : Resource → String) (rosetta : Bool)
    (result : List String) : Prop where
  readsBack : ∀ r, resourceArgValue result r.flag runtime = if trim (values r) =
    "" then none else some (trim (values r))
  /-- No two options set a resource. -/
  single : ∀ r, (((grammar (isDocker runtime)).options result).filter (spells (isDocker runtime) r)).length ≤ 1
  /-- What is no option of the editor and no value of one stays in order. -/
  kept : ((grammar (isDocker runtime)).strip original).Sublist result
  stable : configuredResourceArgs result runtime (fun r : Resource =>
    (resourceArgValue result r.flag runtime).getD "") rosetta =
    .ok result
  alike : ∀ name ∈ aliases runtime, configuredResourceArgs original name values rosetta = .ok result ∧
    ∀ arguments ∈ [original, result], ∀ r :
      Resource, resourceArgValue arguments r.flag name = resourceArgValue arguments r.flag runtime

/-- When an edit keeps its promise. -/
structure Plain (original : List String) (runtime : String) (values : Resource → String) : Prop where
  /-- No resource is set by an attached short option besides another one or a value. -/
  single : ∀ r : Resource, (original.filter (attached (isDocker runtime) r)).length + (if trim (values r) =
    "" then 0 else 1) ≤ 1
  /-- For Docker, there are no CPU shares by the short option, and the CPUs are a whole number. -/
  docker : isDocker runtime = true →
    (∀ a ∈ original, flagOf a ≠ "-c") ∧ (trim (values .cpus) = "" ∨ isPositiveU32 (trim (values .cpus)) = true)

theorem readsBack_of_ok (h : configuredResourceArgs original runtime values rosetta = .ok result) (r : Resource) :
    resourceArgValue result r.flag runtime = if trim (values r) = "" then none else some (trim (values r)) := by
  obtain ⟨haccepts, rfl⟩ := configured_ok_iff.1 h
  have hvalues : ∀ r ∈ given fun r => trim (values r), startsWith (trim (values r)) "-" = false :=
    fun r hr => haccepts.value (mem_given.1 hr)
  have hkept {f : String} (hf : '=' ∉ f.toList) (hc : controlled (runtime = "docker") f = true) (l : List String) :
      runtimeArgValue f (unrelatedArgs (runtime = "docker") original ++ l) = runtimeArgValue f l := by
    refine runtimeArgValue_append hf (fun a ha heq => ?_) l
    have hno := (mem_unrelatedArgs ha).2.1
    rw [heq, hc] at hno
    cases hno
  have hlong := runtimeArgValue_pairs hvalues r (rosettaFlag rosetta)
  rw [runtimeArgValue_rosetta (not_mem_flag r) (by cases r <;> decide), ← settings_eq] at hlong
  unfold resourceArgValue
  rw [List.append_assoc, hkept (not_mem_flag r) (controlled_flag _ r), hlong]
  by_cases hempty : trim (values r) = ""
  · rw [if_neg fun hr => mem_given.1 hr hempty, if_pos hempty, Option.none_or]
    split
    · next hcpus =>
      rw [hkept (by decide) (by simp [controlled, hcpus.2])]
      exact runtimeArgValue_short hvalues (show Resource.cpus.short false = some "-c" from rfl) rosetta
    · split
      · rw [hkept (by decide) (by cases decide (runtime = "docker") <;> decide)]
        exact runtimeArgValue_short hvalues (show Resource.memory.short false = some "-m" from rfl) rosetta
      · rfl
  · rw [if_pos (mem_given.2 hempty), if_neg hempty, Option.some_or]

theorem strip_pairs (hvalues : ∀ r ∈ rs, startsWith (values r) "-" = false) :
    (rewriting docker).strip ((rs.flatMap fun r => [r.flag, values r]) ++ rosettaFlag rosetta) = [] := by
  induction rs with
  | nil =>
    rw [List.flatMap_nil, List.nil_append]
    cases rosetta with
    | true => cases docker <;> decide
    | false => rfl
  | cons r rs ih =>
    have hcontrolled : controlled docker (flagOf r.flag) = true := by rw [flagOf_flag, controlled_flag]
    have hbare : (rewriting docker).bare r.flag = true := by
      simp only [rewriting, hcontrolled, Bool.true_and]
      cases r <;> decide
    rw [List.flatMap_cons, List.append_assoc, List.cons_append, List.cons_append, List.nil_append,
      Grammar.strip_skip (by simp [rewriting, hcontrolled]) hbare (hvalues r List.mem_cons_self),
      ih fun r hr => hvalues r (List.mem_cons_of_mem _ hr)]

theorem stable_of_ok (h : configuredResourceArgs original runtime values rosetta = .ok result) :
    configuredResourceArgs result runtime (fun r : Resource =>
      (resourceArgValue result r.flag runtime).getD "") rosetta =
      .ok result := by
  have hread : (fun r => (resourceArgValue result r.flag runtime).getD "") = fun r => trim (values r) := by
    funext r
    rw [readsBack_of_ok h r]
    split
    · next hempty => rw [hempty]; rfl
    · rfl
  rw [hread]
  obtain ⟨haccepts, hresult⟩ := configured_ok_iff.1 h
  have hunrelated : unrelatedArgs (runtime = "docker") result = unrelatedArgs (runtime = "docker") original := by
    rw [hresult, List.append_assoc, unrelatedArgs_eq, Grammar.strip_append]
    · rw [settings_eq, strip_pairs fun r hr => haccepts.value (mem_given.1 hr), List.append_nil]
    · intro a ha
      rw [unrelatedArgs_eq] at ha
      exact (Grammar.mem_strip ha).2
  rw [configured_ok_iff]
  simp only [trim_trim]
  refine ⟨haccepts, ?_⟩
  rw [hunrelated]
  exact hresult

/-! ## Options of an edit -/

/-- What the code compares is a runtime of Docker's. -/
theorem isDocker_of_eq (h : decide (runtime = "docker") = true) : isDocker runtime = true := by
  rw [decide_eq_true_eq] at h
  subst h
  decide

theorem options_pairs (hvalues : ∀ r ∈ rs, startsWith (values r) "-" = false) :
    (grammar docker).options ((rs.flatMap fun r => [r.flag, values r]) ++ rosettaFlag rosetta) =
      rs.map Resource.flag ++ rosettaFlag rosetta := by
  induction rs with
  | nil =>
    rw [List.flatMap_nil, List.nil_append, List.map_nil, List.nil_append]
    cases rosetta with
    | true => cases docker <;> decide +kernel
    | false => rfl
  | cons r rs ih =>
    have hoption : (grammar docker).option r.flag = true := by cases r <;> cases docker <;> decide +kernel
    have hbare : (grammar docker).bare r.flag = true := by cases r <;> cases docker <;> decide +kernel
    rw [List.flatMap_cons, List.append_assoc, List.cons_append, List.cons_append, List.nil_append,
      Grammar.options_skip hoption hbare (hvalues r List.mem_cons_self),
      ih fun r hr => hvalues r (List.mem_cons_of_mem _ hr), List.map_cons, List.cons_append]

theorem spells_flag (docker : Bool) (r r' : Resource) : spells docker r r'.flag = decide (r' = r) := by
  cases r <;> cases r' <;> cases docker <;> decide

theorem option_of_spells (h : spells docker r a = true) : (grammar docker).option a = true := by
  simp only [grammar, Bool.or_eq_true]
  exact .inl (List.any_eq_true.2 ⟨r, mem_all r, h⟩)

/-- The options of an edit that set a resource: what was attached, and the value. -/
theorem options_of_ok (h : configuredResourceArgs original runtime values rosetta = .ok result) (r : Resource) :
    (((grammar (isDocker runtime)).options result).filter (spells (isDocker runtime) r)).length =
      (original.filter (attached (isDocker runtime) r)).length + (if trim (values r) = "" then 0 else 1) := by
  obtain ⟨haccepts, rfl⟩ := configured_ok_iff.1 h
  have hdocker : decide (runtime = "docker") = true → isDocker runtime = true := isDocker_of_eq
  generalize isDocker runtime = docker at *
  generalize decide (runtime = "docker") = docker' at *
  have hbare : ∀ a ∈ unrelatedArgs docker' original, (grammar docker).bare a = false := by
    intro a ha
    by_contra hbare
    rw [bare_eq, Bool.not_eq_false] at hbare
    have hno := (mem_unrelatedArgs ha).2.1
    rw [flagOf_of_controlled hbare, controlled_mono hdocker hbare] at hno
    cases hno
  have hkept : ((unrelatedArgs docker' original).filter (grammar docker).option).filter (spells docker r) =
      original.filter (attached docker r) := by
    rw [List.filter_filter]
    have hsame : ∀ a ∈ unrelatedArgs docker' original,
        (spells docker r a && (grammar docker).option a) = attached docker r a := by
      intro a ha
      rw [Bool.eq_iff_iff, Bool.and_eq_true]
      constructor
      · rintro ⟨hspells, -⟩
        exact attached_of_spells hspells hdocker (mem_unrelatedArgs ha).2.1
      · intro hattached
        exact ⟨spells_of_attached hattached, option_of_spells (spells_of_attached hattached)⟩
    rw [List.filter_congr hsame, unrelatedArgs_eq]
    refine Grammar.filter_strip (fun a ha => ?_) original
    obtain ⟨hdash, hrosetta, hcontrolled⟩ := attached_plain ha
    refine ⟨hdash, ?_⟩
    simp only [rewriting, hcontrolled, Bool.false_or, decide_eq_false_iff_not]
    exact hrosetta
  have hadded : (((given fun r => trim (values r)).map Resource.flag ++ rosettaFlag rosetta).filter
      (spells docker r)).length = if trim (values r) = "" then 0 else 1 := by
    unfold given
    have hrosetta : (rosettaFlag rosetta).filter (spells docker r) = [] := by
      cases rosetta <;> cases r <;> cases docker <;> rfl
    rw [List.filter_append, hrosetta, List.append_nil, List.filter_map, List.length_map, List.filter_filter]
    simp only [Function.comp_apply, spells_flag]
    by_cases hempty : trim (values r) = ""
    · rw [if_pos hempty, List.length_eq_zero_iff, List.filter_eq_nil_iff]
      intro r' _
      rw [Bool.and_eq_true, decide_eq_true_eq]
      rintro ⟨rfl, hne⟩
      simp [hempty] at hne
    · rw [if_neg hempty]
      cases r <;> simp [Resource.all, hempty]
  rw [List.append_assoc, Grammar.options_append hbare, List.filter_append, List.length_append, hkept]
  rw [settings_eq, options_pairs fun r hr => haccepts.value (mem_given.1 hr), hadded]

/-! ## What is kept -/

/-- The rewriter takes no more than the options of the editor. -/
theorem kept_sublist (docker : Bool) (l : List String) :
    ((grammar docker).strip l).Sublist (unrelatedArgs docker l) := by
  rw [unrelatedArgs_eq]
  have hdash : (rewriting docker).dash = (grammar docker).dash := rfl
  refine Grammar.strip_sublist hdash (fun a ha => ?_) (fun a _ => ?_) (fun a ha hno => ?_) l
  · simp only [rewriting, Bool.or_eq_true, decide_eq_true_eq] at ha
    simp only [grammar, Bool.or_eq_true, decide_eq_true_eq]
    refine ha.imp_left fun h => ?_
    obtain ⟨r, hr⟩ := controlled_iff.1 h
    exact List.any_eq_true.2 ⟨r, mem_all r, spells_iff.2 (hr.elim .inl fun hs => .inr (.inl ⟨_, hs, rfl⟩))⟩
  · rw [rewriting_bare_eq, bare_eq]
  · by_contra hbare
    rw [bare_eq, Bool.not_eq_false] at hbare
    simp only [rewriting, Bool.or_eq_false_iff] at hno
    rw [flagOf_of_controlled hbare, hbare] at hno
    cases hno.1

/-- Without CPU shares the rewriter does the same for every runtime. -/
theorem unrelatedArgs_docker (h : ∀ a ∈ l, flagOf a ≠ "-c") : unrelatedArgs true l = unrelatedArgs false l := by
  rw [unrelatedArgs_eq, unrelatedArgs_eq]
  refine Grammar.strip_congr rfl fun a ha => ?_
  have hcontrolled : controlled true (flagOf a) = controlled false (flagOf a) := by simp [controlled, h a ha]
  simp only [rewriting, hcontrolled, and_self]

theorem runtimeArgValue_none (hf : '=' ∉ f.toList) (h : ∀ a ∈ l, flagOf a ≠ f) : runtimeArgValue f l = none := by
  have happend := runtimeArgValue_append hf h []
  rwa [List.append_nil] at happend

/-- Without CPU shares the reader does the same for every runtime. -/
theorem resourceArgValue_docker (h : ∀ a ∈ l, flagOf a ≠ "-c") (r : Resource) :
    resourceArgValue l r.flag name = resourceArgValue l r.flag runtime := by
  have hnone : runtimeArgValue "-c" l = none := runtimeArgValue_none (by decide) h
  unfold resourceArgValue
  rw [hnone]
  cases r <;> simp [Resource.flag]

theorem shares_of_unrelated_eq (h : unrelatedArgs true l = unrelatedArgs false l) : ∀ a ∈ l, flagOf a ≠ "-c" := by
  intro a ha heq
  have hdash : startsWith a "-" = true := by
    rcases (flagOf_eq_iff (by decide)).1 heq with rfl | hstarts
    · decide
    · obtain ⟨rest, hrest⟩ := startsWith_iff.1 hstarts
      exact startsWith_iff.2 ⟨"c=".toList ++ rest, by rw [hrest]; rfl⟩
  have hoption : (rewriting true).option a = false := by simp [rewriting, heq, controlled]
  have hmem : a ∈ unrelatedArgs true l := by
    rw [unrelatedArgs_eq]
    exact Grammar.mem_strip_of_dash ha hdash hoption
  rw [h] at hmem
  have hno := (mem_unrelatedArgs hmem).2.1
  rw [heq] at hno
  cases hno

/-! ## The edit -/

theorem aliases_of_isDocker (h : isDocker runtime = true) : aliases runtime = dockerNames :=
  if_pos (of_decide_eq_true h)

theorem not_apple_of_isDocker (h : isDocker runtime = true) : runtime ∉ appleNames := by
  intro hmem
  simp only [appleNames, List.mem_cons, List.not_mem_nil, or_false] at hmem
  rcases hmem with rfl | rfl | rfl <;> exact absurd h (by decide)

/-- For a runtime that is not Docker's, no name of it is. -/
theorem aliases_of_not_isDocker (h : isDocker runtime = false) (hname : name ∈ aliases runtime) :
    name ∈ appleNames ∧ name ≠ "docker" ∧ runtime ≠ "docker" := by
  unfold aliases at hname
  rw [if_neg (of_decide_eq_false h)] at hname
  split at hname
  · refine ⟨hname, ?_, ?_⟩
    · rintro rfl
      revert hname
      decide
    · rintro rfl
      revert h
      decide
  · cases hname

theorem Accepts.alias (h : Accepts runtime values rosetta) (hname : name ∈ aliases runtime)
    (hcpus : isDocker runtime = true → values .cpus = "" ∨ isPositiveU32 (values .cpus) = true) :
    Accepts name values rosetta := by
  cases hdocker : isDocker runtime with
  | true =>
    refine ⟨(hcpus hdocker).imp_right fun hu32 => ?_, h.memory, h.shm, h.within, h.platform, fun hon => ?_⟩
    · unfold validCpus
      split
      · exact isPositiveF64_of_u32 hu32
      · exact hu32
    · exact absurd (h.rosetta hon) (not_apple_of_isDocker hdocker)
  | false =>
    obtain ⟨happle, hne, hne'⟩ := aliases_of_not_isDocker hdocker hname
    refine ⟨h.cpus.imp_right fun hvalid => ?_, h.memory, h.shm, h.within, h.platform, fun _ => happle⟩
    unfold validCpus at hvalid ⊢
    rw [if_neg hne'] at hvalid
    rw [if_neg hne]
    exact hvalid

/-- Without CPU shares the rewriter does the same for all names of a runtime. -/
theorem Plain.unrelated_eq (h : Plain original runtime values) :
    unrelatedArgs (runtime = "docker") original = unrelatedArgs (isDocker runtime) original := by
  cases hdocker : isDocker runtime with
  | true =>
    cases decide (runtime = "docker") with
    | true => rfl
    | false => exact (unrelatedArgs_docker (h.docker hdocker).1).symm
  | false =>
    cases hcode : decide (runtime = "docker") with
    | true =>
      rw [isDocker_of_eq hcode] at hdocker
      cases hdocker
    | false => rfl

theorem Plain.alike (hplain : Plain original runtime values)
    (h : configuredResourceArgs original runtime values rosetta = .ok result) (hname : name ∈ aliases runtime) :
    configuredResourceArgs original name values rosetta = .ok result := by
  obtain ⟨haccepts, rfl⟩ := configured_ok_iff.1 h
  refine configured_ok_iff.2 ⟨haccepts.alias hname fun hdocker => (hplain.docker hdocker).2, ?_⟩
  suffices unrelatedArgs (runtime = "docker") original = unrelatedArgs (name = "docker") original by rw [this]
  cases hdocker : isDocker runtime with
  | true =>
    have hsame := unrelatedArgs_docker (hplain.docker hdocker).1
    cases decide (runtime = "docker") <;> cases decide (name =
      "docker") <;> first | rfl | exact hsame | exact hsame.symm
  | false =>
    obtain ⟨-, hne, hne'⟩ := aliases_of_not_isDocker hdocker hname
    rw [decide_eq_false hne, decide_eq_false hne']

/-- An edit that is taken keeps its promise exactly when no resource is set by an attached option besides, and, for
Docker, there are no CPU shares and the CPUs are a whole number. -/
theorem edited_iff (h : configuredResourceArgs original runtime values rosetta = .ok result) :
    Edited original runtime values rosetta result ↔ Plain original runtime values := by
  constructor
  · intro hedited
    refine ⟨fun r => ?_, fun hdocker => ?_⟩
    · rw [← options_of_ok h r]
      exact hedited.single r
    · -- the two names give one result
      have halike := hedited.alike
      rw [aliases_of_isDocker hdocker] at halike
      obtain ⟨-, hd⟩ := configured_ok_iff.1 (halike "docker" (by decide)).1
      obtain ⟨haccepts, ho⟩ := configured_ok_iff.1 (halike "orb" (by decide)).1
      rw [hd, List.append_assoc, List.append_assoc] at ho
      exact ⟨shares_of_unrelated_eq (List.append_cancel_right ho), haccepts.cpus⟩
  · intro hplain
    refine ⟨readsBack_of_ok h, fun r => ?_, ?_, stable_of_ok h, fun name hname => ⟨hplain.alike h hname, ?_⟩⟩
    · rw [options_of_ok h r]
      exact hplain.single r
    · obtain ⟨-, rfl⟩ := configured_ok_iff.1 h
      rw [hplain.unrelated_eq, List.append_assoc]
      exact (kept_sublist _ original).trans (List.sublist_append_left _ _)
    · intro arguments harguments r
      rcases List.mem_cons.1 harguments with rfl | hresult
      · cases hdocker : isDocker runtime with
        | true => exact resourceArgValue_docker (hplain.docker hdocker).1 r
        | false =>
          obtain ⟨-, hne, hne'⟩ := aliases_of_not_isDocker hdocker hname
          unfold resourceArgValue
          simp only [hne, hne', ne_eq, not_false_eq_true, and_true]
      · rw [List.mem_singleton.1 hresult, readsBack_of_ok h, readsBack_of_ok (hplain.alike h hname)]

/-- The fields of an edit that sets the memory alone. -/
def memoryOnly (memory : String) : Resource → String
  | .memory => memory
  | _ => ""

theorem edited_iff_dns : Edited ["-c", "2", "--memory=1G", "--dns", "1.1.1.1"] "container" (memoryOnly " 4G ") true
    ["--dns", "1.1.1.1", "--memory", "4G", "--rosetta"] :=
  (edited_iff (by decide +kernel)).2 ⟨fun r => by cases r <;> decide +kernel, fun h => absurd h (by decide +kernel)⟩

/-- An attached short option stays besides the value that is entered. -/
theorem attached_breaks : ¬ ∀ (original : List String) (runtime : String) (values : Resource → String) (rosetta : Bool)
    (result : List String), configuredResourceArgs original runtime values rosetta = .ok result →
    Edited original runtime values rosetta result := by
  intro h
  have hedited := h ["-m4G"] "docker" (memoryOnly "2G") false ["-m4G", "--memory", "2G"] (by decide)
  exact absurd (hedited.single .memory) (by decide)

end CocoaWay.Panel
