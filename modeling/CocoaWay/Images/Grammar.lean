import CocoaWay.Images.Reference
import Mathlib.Data.List.TakeWhile

/-!
# The grammar of image references

* `IsDigest`, `IsPort`, `IsHost`, `IsDomain`, `IsComponent`, `IsTag` : the parts of a reference, with what accepts
  each of them;
* `IsName`, `Suffix` : a name is a domain and a path, and a reference a name with a tag, a digest or neither;
* `IsReference` : the references; `validAppleImageReference_iff`.
-/

namespace CocoaWay.Images
open CommandCache (Text)
open Lib

variable {s rest digest : Text} {c : Char}

/-! ## Digests -/

def IsDigest (s : Text) : Prop := ∃ hash, s = "sha256:".toList ++ hash ∧ hash.length = 64 ∧
    ∀ c ∈ hash, isHexDigit c = true

theorem stripPrefix_eq_some {start : Text} : stripPrefix start s = some rest ↔ s = start ++ rest := by
  unfold stripPrefix
  split
  next h =>
    obtain ⟨rest', rfl⟩ := List.isPrefixOf_iff_prefix.1 h
    rw [List.drop_left, Option.some.injEq, List.append_cancel_left_eq]
  next h =>
    refine ⟨nofun, ?_⟩
    rintro rfl
    exact absurd (List.isPrefixOf_iff_prefix.2 (List.prefix_append _ _)) h

theorem stripPrefix_any {start : Text} {p : Text → Bool} :
    (stripPrefix start s).any p = true ↔ ∃ rest, s = start ++ rest ∧ p rest = true := by
  rw [Option.any_eq_true]
  simp only [stripPrefix_eq_some]

theorem validAppleImageDigest_iff : validAppleImageDigest s = true ↔ IsDigest s := by
  unfold validAppleImageDigest IsDigest
  simp only [stripPrefix_any, Bool.and_eq_true, decide_eq_true_eq, List.all_eq_true]

/-! ## Domains -/

structure IsPort (port : Text) : Prop where
  digits : ∀ c ∈ port, c.isDigit = true
  nonempty : port ≠ []
  value : 0 < decimalValue port ∧ decimalValue port ≤ 65535

theorem validPort_iff : validPort s = true ↔ IsPort s := by
  simp only [validPort, Bool.and_eq_true, List.all_eq_true, decide_eq_true_eq]
  exact ⟨fun ⟨⟨hne, hdigits⟩, hvalue⟩ => ⟨hdigits, hne, hvalue⟩, fun h => ⟨⟨h.nonempty, h.digits⟩, h.value⟩⟩

structure IsLabel (label : Text) : Prop where
  characters : ∀ c ∈ label, c.isAlphanum = true ∨ c = '-'
  short : label.length ≤ 63
  first : ∃ c, label.head? = some c ∧ c.isAlphanum = true
  last : ∃ c, label.getLast? = some c ∧ c.isAlphanum = true

theorem validLabel_iff : validLabel s = true ↔ IsLabel s := by
  simp only [validLabel, Bool.and_eq_true, List.all_eq_true, Bool.or_eq_true, decide_eq_true_eq, Option.any_eq_true]
  constructor
  · rintro ⟨⟨⟨⟨-, hshort⟩, hfirst⟩, hlast⟩, hall⟩
    exact ⟨hall, hshort, hfirst, hlast⟩
  · intro h
    refine ⟨⟨⟨⟨?_, h.short⟩, h.first⟩, h.last⟩, h.characters⟩
    rintro rfl
    obtain ⟨c, hc, -⟩ := h.first
    cases hc

/-- Labels with dots between them. -/
def IsHost (host : Text) : Prop := ∃ labels, labels ≠ [] ∧ host = ['.'].intercalate labels ∧
    ∀ label ∈ labels, IsLabel label

theorem label_not_mem {label : Text} (h : IsLabel label) (hc : c.isAlphanum = false) (hdash : c ≠ '-') : c ∉ label := by
  intro hmem
  rcases h.characters c hmem with halnum | rfl
  · rw [hc] at halnum
    cases halnum
  · exact hdash rfl

theorem host_not_mem (h : IsHost s) (hc : c.isAlphanum = false) (hdash : c ≠ '-') (hdot : c ≠ '.') : c ∉ s := by
  obtain ⟨labels, -, rfl, hlabels⟩ := h
  exact not_mem_intercalate hdot fun label hlabel => label_not_mem (hlabels label hlabel) hc hdash

theorem isHost_iff : (s.splitOn '.').all validLabel = true ↔ IsHost s := by
  simp only [List.all_eq_true, validLabel_iff]
  exact forall_splitOn fun label hlabel => label_not_mem hlabel (by decide) (by decide)

/-- A port behind a colon, or nothing. -/
def IsPortSuffix (s : Text) : Prop := s = [] ∨ ∃ port, s = ':' :: port ∧ IsPort port

/-- A host or an IPv6 address in brackets, with a port or none. -/
inductive IsDomain : Text → Prop
  | host {host port : Text} (hhost : IsHost host) (hport : IsPortSuffix port) : IsDomain (host ++ port)
  | address {address port : Text} (haddress : isIpv6 address = true) (hport : IsPortSuffix port) :
    IsDomain ('[' :: (address ++ ']' :: port))

theorem port_not_mem {port : Text} (h : IsPort port) (hc : c.isDigit = false) : c ∉ port := by
  intro hmem
  rw [h.digits c hmem] at hc
  cases hc

theorem isPortSuffix_iff : (decide (s = []) || (stripPrefix [':'] s).any validPort) = true ↔ IsPortSuffix s := by
  rw [Bool.or_eq_true, decide_eq_true_eq, stripPrefix_any]
  simp only [validPort_iff]
  exact Iff.rfl

theorem host_ne_nil (h : IsHost s) : s ≠ [] := by
  rintro rfl
  obtain ⟨labels, hne, hempty, hlabels⟩ := h
  obtain ⟨label, labels', rfl⟩ := List.exists_cons_of_ne_nil hne
  obtain ⟨c, hc, -⟩ := (hlabels label List.mem_cons_self).first
  have hlabel : label = [] := by
    cases labels' <;> simp [List.intercalate] at hempty
    exact hempty
  rw [hlabel] at hc
  cases hc

theorem bracket_domain_iff : IsDomain ('[' :: s) ↔ ∃ address port, s = address ++ ']' :: port ∧ isIpv6 address = true ∧
    IsPortSuffix port := by
  constructor
  · intro h
    generalize hs : '[' :: s = domain at h
    cases h with
    | host hhost hport =>
      obtain ⟨c, host', rfl⟩ := List.exists_cons_of_ne_nil (host_ne_nil hhost)
      obtain ⟨rfl, -⟩ := List.cons.inj hs
      exact absurd List.mem_cons_self (host_not_mem hhost (by decide) (by decide) (by decide))
    | address haddress hport => exact ⟨_, _, (List.cons.inj hs).2, haddress, hport⟩
  · rintro ⟨address, port, rfl, haddress, hport⟩
    exact .address haddress hport

theorem host_domain_iff (h : ∀ rest, s ≠ '[' :: rest) : IsDomain s ↔ ∃ host port, s = host ++ port ∧ IsHost host ∧
    IsPortSuffix port := by
  constructor
  · intro hdomain
    cases hdomain with
    | host hhost hport => exact ⟨_, _, rfl, hhost, hport⟩
    | address haddress hport => exact absurd rfl (h _)
  · rintro ⟨host, port, rfl, hhost, hport⟩
    exact .host hhost hport

theorem isIpv6_not_mem (h : isIpv6 s = true) (hc : isHexDigit c = false) (hcolon : c ≠ ':') (hdot : c ≠ '.') :
    c ∉ s := by
  intro hmem
  rcases chars_of_isIpv6 h hmem with hhex | rfl | rfl
  · rw [hc] at hhex
    cases hhex
  · exact hcolon rfl
  · exact hdot rfl

theorem validAppleImageDomain_iff : validAppleImageDomain s = true ↔ IsDomain s := by
  unfold validAppleImageDomain
  cases hbracket : stripPrefix ['['] s with
  | some address =>
    obtain rfl := stripPrefix_eq_some.1 hbracket
    dsimp only
    rw [List.singleton_append, bracket_domain_iff, Option.any_eq_true]
    simp only [Bool.and_eq_true, isPortSuffix_iff, Prod.exists, splitOnce_eq_some]
    constructor
    · rintro ⟨address', port, ⟨rfl, -⟩, haddress, hport⟩
      exact ⟨address', port, rfl, haddress, hport⟩
    · rintro ⟨address', port, rfl, haddress, hport⟩
      exact ⟨address', port, ⟨rfl, isIpv6_not_mem haddress (by decide) (by decide) (by decide)⟩, haddress, hport⟩
  | none =>
    have hopen : ∀ rest, s ≠ '[' :: rest := by
      rintro rest rfl
      have hsome : stripPrefix ['['] ('[' :: rest) = some rest := stripPrefix_eq_some.2 rfl
      rw [hsome] at hbracket
      cases hbracket
    have hcolon : ∀ {host : Text}, IsHost host → ':' ∉ host := fun h =>
      host_not_mem h (by decide) (by decide) (by decide)
    dsimp only
    rw [host_domain_iff hopen]
    cases hport : rfind ':' s with
    | some colon =>
      obtain ⟨host, port, rfl, hnot, rfl⟩ := rfind_eq_some.1 hport
      have hdrop : (host ++ ':' :: port).drop (host.length + 1) = port := by simp
      simp only [List.take_left, hdrop, isHost_iff, Bool.and_eq_true, validPort_iff]
      constructor
      · rintro ⟨hvalid, hhost⟩
        exact ⟨host, ':' :: port, rfl, hhost, .inr ⟨port, rfl, hvalid⟩⟩
      · rintro ⟨host', suffix, heq, hhost, rfl | ⟨port', rfl, hvalid⟩⟩
        · rw [List.append_nil] at heq
          exact absurd (heq ▸ List.mem_append_right _ List.mem_cons_self) (hcolon hhost)
        · have hlast := rfind_append_cons (port_not_mem hvalid (c := ':') (by decide)) host'
          rw [← heq, hport] at hlast
          obtain ⟨rfl, hrest⟩ := List.append_inj heq (Option.some.inj hlast)
          obtain ⟨-, rfl⟩ := List.cons.inj hrest
          exact ⟨hvalid, hhost⟩
    | none =>
      rw [rfind_eq_none] at hport
      dsimp only
      rw [isHost_iff]
      constructor
      · exact fun h => ⟨s, [], (List.append_nil s).symm, h, .inl rfl⟩
      · rintro ⟨host, port, rfl, hhost, rfl | ⟨port, rfl, -⟩⟩
        · rwa [List.append_nil]
        · exact absurd (List.mem_append_right _ List.mem_cons_self) hport

/-! ## Components -/

inductive IsSeparator : Text → Prop
  | dot : IsSeparator ['.']
  | underscore : IsSeparator ['_']
  | underscores : IsSeparator ['_', '_']
  | dashes (n : Nat) : IsSeparator (List.replicate (n + 1) '-')

/-- Lowercase letters and digits. -/
structure IsWord (word : Text) : Prop where
  characters : ∀ c ∈ word, isWordCharacter c = true
  nonempty : word ≠ []

/-- Words with separators between them. -/
inductive IsComponent : Text → Prop
  | word {word : Text} (hword : IsWord word) : IsComponent word
  | join {word separator rest : Text} (hword : IsWord word) (hseparator : IsSeparator separator)
    (hrest : IsComponent rest) :
    IsComponent (word ++ separator ++ rest)

theorem IsWord.head {word : Text} (h : IsWord word) : ∃ c word', word = c :: word' ∧ isWordCharacter c = true := by
  obtain ⟨c, word', rfl⟩ := List.exists_cons_of_ne_nil h.nonempty
  exact ⟨c, word', rfl, h.characters c List.mem_cons_self⟩

theorem IsComponent.head (h : IsComponent s) : ∃ c rest, s = c :: rest ∧ isWordCharacter c = true := by
  cases h with
  | word hword => exact hword.head
  | join hword =>
    obtain ⟨c, word', rfl, hc⟩ := hword.head
    exact ⟨c, _, rfl, hc⟩

theorem IsSeparator.head {separator : Text} (h : IsSeparator separator) :
    ∃ c rest, separator = c :: rest ∧ isWordCharacter c = false := by
  cases h with
  | dot => exact ⟨_, _, rfl, by decide⟩
  | underscore => exact ⟨_, _, rfl, by decide⟩
  | underscores => exact ⟨_, _, rfl, by decide⟩
  | dashes n => exact ⟨_, _, List.replicate_succ, by decide⟩

/-- What is behind a separator and does not go on with it. -/
theorem afterSeparator_iff (hrest : ∃ c rest', rest = c :: rest' ∧ isWordCharacter c = true) :
    afterSeparator s = some rest ↔ ∃ separator, IsSeparator separator ∧ s = separator ++ rest := by
  obtain ⟨c, rest', rfl, hc⟩ := hrest
  have hne : ∀ d, isWordCharacter d = false → c ≠ d := fun d hd heq => by
    rw [heq, hd] at hc
    cases hc
  constructor
  · intro h
    unfold afterSeparator at h
    split at h
    · cases h
      exact ⟨_, .dot, rfl⟩
    · cases h
      exact ⟨_, .underscores, rfl⟩
    · cases h
      exact ⟨_, .underscore, rfl⟩
    next rest =>
      have hdashes : rest.takeWhile (fun c => decide (c = '-')) = List.replicate _ '-' :=
        List.eq_replicate_of_mem fun c hc => by simpa using List.mem_takeWhile_imp hc
      refine ⟨_, .dashes (rest.takeWhile fun c => decide (c = '-')).length, ?_⟩
      rw [List.replicate_succ, ← hdashes, List.cons_append, ← Option.some.inj h, List.takeWhile_append_dropWhile]
    · cases h
  · rintro ⟨separator, hseparator, rfl⟩
    cases hseparator with
    | dot => rfl
    | underscores => rfl
    | underscore =>
      rw [List.singleton_append, afterSeparator]
      intro rest heq
      exact hne '_' (by decide) (List.cons.inj heq).1
    | dashes n =>
      have hdashes : ∀ d ∈ List.replicate n '-', decide (d = '-') = true :=
        fun d hd => decide_eq_true (List.eq_of_mem_replicate hd)
      rw [List.replicate_succ, List.cons_append, afterSeparator, List.dropWhile_append_of_pos hdashes,
        List.dropWhile_cons_of_neg (by simpa using hne '-' (by decide))]

/-- A word is what the loop takes off the front. -/
theorem takeWhile_word {word : Text} (h : IsWord word) (hrest : ∀ c ∈ rest.head?, isWordCharacter c = false) :
    (word ++ rest).takeWhile isWordCharacter = word ∧ (word ++ rest).dropWhile isWordCharacter = rest := by
  rw [List.takeWhile_append_of_pos h.characters, List.dropWhile_append_of_pos h.characters]
  cases rest with
  | nil => exact ⟨List.append_nil word, rfl⟩
  | cons c rest =>
    have hc : ¬ isWordCharacter c = true := by
      rw [hrest c rfl]
      decide
    rw [List.takeWhile_cons_of_neg hc, List.dropWhile_cons_of_neg hc]
    exact ⟨List.append_nil word, rfl⟩

theorem takeWhile_isWord (h : s.takeWhile isWordCharacter ≠ []) : IsWord (s.takeWhile isWordCharacter) :=
  ⟨fun _ hc => List.mem_takeWhile_imp hc, h⟩

/-- A component that is not a word goes on behind a separator. -/
theorem isComponent_iff (hne : s.dropWhile isWordCharacter ≠ []) : IsComponent s ↔ s.takeWhile isWordCharacter ≠ [] ∧
    ∃ rest, afterSeparator (s.dropWhile isWordCharacter) = some rest ∧ IsComponent rest := by
  constructor
  · intro h
    cases h with
    | word hword =>
      have hdrop : s.dropWhile isWordCharacter = [] := List.dropWhile_eq_nil_iff.2 hword.characters
      exact absurd hdrop hne
    | @join word separator rest hword hseparator hrest =>
      have hhead : ∀ c ∈ (separator ++ rest).head?, isWordCharacter c = false := by
        obtain ⟨c, more, rfl, hc⟩ := hseparator.head
        intro c' hc'
        cases hc'
        exact hc
      obtain ⟨htake, hdrop⟩ := takeWhile_word hword hhead
      rw [List.append_assoc, htake, hdrop]
      exact ⟨hword.nonempty, rest, (afterSeparator_iff hrest.head).2 ⟨separator, hseparator, rfl⟩, hrest⟩
  · rintro ⟨hword, rest, hafter, hrest⟩
    obtain ⟨separator, hseparator, heq⟩ := (afterSeparator_iff hrest.head).1 hafter
    have hjoin := IsComponent.join (takeWhile_isWord hword) hseparator hrest
    rwa [List.append_assoc, ← heq, List.takeWhile_append_dropWhile] at hjoin

theorem validComponent_iff : validComponent s = true ↔ IsComponent s := by
  induction s using validComponent.induct with
  | case1 s hempty =>
    rw [validComponent_eq, if_pos hempty]
    refine ⟨nofun, fun h => ?_⟩
    obtain ⟨c, rest, rfl, hc⟩ := h.head
    rw [List.takeWhile_cons_of_pos hc] at hempty
    cases hempty
  | case2 s hword hdrop =>
    rw [validComponent_eq, if_neg hword, if_pos hdrop]
    refine ⟨fun _ => ?_, fun _ => rfl⟩
    rw [← List.takeWhile_append_dropWhile (p := isWordCharacter) (l := s), hdrop, List.append_nil]
    exact .word (takeWhile_isWord hword)
  | case3 s hword hdrop rest hafter ih =>
    rw [validComponent_eq, if_neg hword, if_neg hdrop, hafter, Option.any_some, ih, isComponent_iff hdrop, hafter]
    simp [hword]
  | case4 s hword hdrop hafter =>
    rw [validComponent_eq, if_neg hword, if_neg hdrop, hafter, Option.any_none, isComponent_iff hdrop, hafter]
    simp

theorem component_not_mem (h : IsComponent s) (hc : isWordCharacter c = false) (hseparator : c ∉ ['.', '_', '-']) :
    c ∉ s := by
  induction h with
  | word hword => exact fun hmem => by rw [hword.characters c hmem] at hc; cases hc
  | join hword hsep _ ih =>
    intro hmem
    rw [List.mem_append, List.mem_append] at hmem
    rcases hmem with (hmem | hmem) | hmem
    · rw [hword.characters c hmem] at hc
      cases hc
    · cases hsep <;> simp_all
    · exact ih hmem

/-! ## Names -/

/-- Components with slashes between them. -/
def IsPath (path : Text) : Prop :=
  ∃ components, components ≠ [] ∧ path = ['/'].intercalate components ∧ ∀ component ∈ components, IsComponent component

theorem isPath_iff : (s.splitOn '/').all validComponent = true ↔ IsPath s := by
  simp only [List.all_eq_true, validComponent_iff]
  exact forall_splitOn fun component hcomponent => component_not_mem hcomponent (by decide) (by decide)

theorem path_not_mem (h : IsPath s) (hc : isWordCharacter c = false) (hseparator : c ∉ ['.', '_', '-'])
    (hslash : c ≠ '/') :
    c ∉ s := by
  obtain ⟨components, -, rfl, hcomponents⟩ := h
  exact not_mem_intercalate hslash fun component hcomponent =>
    component_not_mem (hcomponents component hcomponent) hc hseparator

theorem path_ne_nil (h : IsPath s) : s ≠ [] := by
  rintro rfl
  obtain ⟨components, hne, hempty, hcomponents⟩ := h
  obtain ⟨component, components', rfl⟩ := List.exists_cons_of_ne_nil hne
  obtain ⟨c, rest, rfl, -⟩ := (hcomponents component List.mem_cons_self).head
  cases components' <;> simp [List.intercalate] at hempty

theorem domain_not_mem (h : IsDomain s) (hc : c.isAlphanum = false) (hhex : isHexDigit c = false)
    (hdigit : c.isDigit = false)
    (hmark : c ∉ ['-', '.', ':', '[', ']']) : c ∉ s := by
  simp only [List.mem_cons, List.not_mem_nil, or_false, not_or] at hmark
  obtain ⟨hdash, hdot, hcolon, hopen, hclose⟩ := hmark
  have hport : ∀ {port : Text}, IsPortSuffix port → c ∉ port := by
    rintro port (rfl | ⟨port, rfl, hport⟩) hmem
    · cases hmem
    · rcases List.mem_cons.1 hmem with rfl | hmem
      · exact hcolon rfl
      · exact port_not_mem hport hdigit hmem
  cases h with
  | host hhost hsuffix =>
    exact fun hmem => (List.mem_append.1 hmem).elim (host_not_mem hhost hc hdash hdot) (hport hsuffix)
  | address haddress hsuffix =>
    intro hmem
    rw [List.mem_cons, List.mem_append, List.mem_cons] at hmem
    rcases hmem with hmem | hmem | hmem | hmem
    · exact hopen hmem
    · exact isIpv6_not_mem haddress hhex hcolon hdot hmem
    · exact hclose hmem
    · exact hport hsuffix hmem

/-- A path, or a domain and a path. The first of several components of a path does not read like a domain. -/
inductive IsName : Text → Prop
  | path {path : Text} (hpath : IsPath path)
    (hfirst : ∀ first rest, path = first ++ '/' :: rest → '/' ∉ first → readsLikeDomain first = false) : IsName path
  | domain {domain path : Text} (hreads : readsLikeDomain domain = true) (hdomain : IsDomain domain)
    (hpath : IsPath path) :
    IsName (domain ++ '/' :: path)

theorem isName_iff : ((pathOf s).any fun path => (path.splitOn '/').all validComponent) = true ↔ IsName s := by
  unfold pathOf
  rw [Option.any_eq_true]
  simp only [isPath_iff]
  cases hslash : splitOnce '/' s with
  | none =>
    rw [splitOnce_eq_none] at hslash
    have hfirst : ∀ first rest, s = first ++ '/' :: rest → '/' ∉ first → readsLikeDomain first = false := by
      rintro first rest rfl
      exact absurd (List.mem_append_right _ List.mem_cons_self) hslash
    constructor
    · rintro ⟨path, heq, hpath⟩
      obtain rfl := Option.some.inj heq
      exact .path hpath hfirst
    · intro h
      cases h with
      | path hpath => exact ⟨s, rfl, hpath⟩
      | domain => exact absurd (List.mem_append_right _ List.mem_cons_self) hslash
  | some parts =>
    obtain ⟨domain, path⟩ := parts
    obtain ⟨rfl, hdomain⟩ := splitOnce_eq_some.1 hslash
    have hsame : ∀ {first rest : Text}, domain ++ '/' :: path = first ++ '/' :: rest → '/' ∉ first →
        domain = first ∧ path = rest := by
      intro first rest heq hfirst
      rw [heq, splitOnce_append hfirst] at hslash
      exact ⟨(Prod.mk.inj (Option.some.inj hslash)).1.symm, (Prod.mk.inj (Option.some.inj hslash)).2.symm⟩
    dsimp only
    constructor
    · rintro ⟨path', heq, hpath⟩
      split at heq
      next hreads =>
        obtain ⟨hvalid, heq⟩ := Option.ite_none_right_eq_some.1 heq
        obtain rfl := Option.some.inj heq
        exact .domain hreads (validAppleImageDomain_iff.1 hvalid) hpath
      next hreads =>
        obtain rfl := Option.some.inj heq
        refine .path hpath fun first rest heq hfirst => ?_
        obtain ⟨rfl, -⟩ := hsame heq hfirst
        exact Bool.eq_false_iff.2 hreads
    · intro h
      generalize hs : domain ++ '/' :: path = name at h
      cases h with
      | path hpath hfirst =>
        rw [if_neg (Bool.eq_false_iff.1 (hfirst domain path hs.symm hdomain))]
        exact ⟨_, rfl, hs ▸ hpath⟩
      | domain hreads hvalid hpath =>
        have hnot := domain_not_mem (c := '/') hvalid (by decide) (by decide) (by decide) (by decide)
        obtain ⟨rfl, rfl⟩ := hsame hs hnot
        rw [if_pos hreads, if_pos (validAppleImageDomain_iff.2 hvalid)]
        exact ⟨_, rfl, hpath⟩

theorem IsName.ne_nil (h : IsName s) : s ≠ [] := by
  cases h with
  | path hpath => exact path_ne_nil hpath
  | domain => exact List.append_ne_nil_of_right_ne_nil _ (List.cons_ne_nil _ _)

theorem name_not_mem (h : IsName s) : '@' ∉ s := by
  cases h with
  | path hpath => exact path_not_mem hpath (by decide) (by decide) (by decide)
  | domain _ hdomain hpath =>
    intro hmem
    rcases List.mem_append.1 hmem with hmem | hmem
    · exact domain_not_mem hdomain (by decide) (by decide) (by decide) (by decide) hmem
    · rcases List.mem_cons.1 hmem with heq | hmem
      · exact absurd heq (by decide)
      · exact path_not_mem hpath (by decide) (by decide) (by decide) hmem

/-! ## Tags -/

structure IsTag (tag : Text) : Prop where
  first : ∃ c, tag.head? = some c ∧ isTagStart c = true
  characters : ∀ c ∈ tag, isTagCharacter c = true
  short : tag.length ≤ 128

theorem validTag_iff : validTag s = true ↔ IsTag s := by
  simp only [validTag, Bool.and_eq_true, List.all_eq_true, decide_eq_true_eq, Option.any_eq_true]
  constructor
  · rintro ⟨⟨⟨-, hshort⟩, hfirst⟩, hall⟩
    exact ⟨hfirst, hall, hshort⟩
  · intro h
    refine ⟨⟨⟨?_, h.short⟩, h.first⟩, h.characters⟩
    rintro rfl
    obtain ⟨c, hc, -⟩ := h.first
    cases hc

theorem tag_not_mem (h : IsTag s) (hc : isTagCharacter c = false) : c ∉ s := fun hmem => by
  rw [h.characters c hmem] at hc
  cases hc

theorem tagColon_name (h : IsName s) : tagColon s = none := by
  unfold tagColon
  cases h with
  | path hpath =>
    have hcolon : rfind ':' s = none := rfind_eq_none.2 (path_not_mem hpath (by decide) (by decide) (by decide))
    rw [hcolon, Option.filter_none]
  | @domain domain path _ hdomain hpath =>
    have hcolon : ':' ∉ '/' :: path := by
      rw [List.mem_cons, not_or]
      exact ⟨by decide, path_not_mem hpath (by decide) (by decide) (by decide)⟩
    obtain ⟨i, hslash⟩ := rfind_append_of_mem (show '/' ∈ '/' :: path from List.mem_cons_self) domain
    rw [rfind_append_of_not_mem hcolon, Option.filter_eq_none_iff, hslash]
    intro colon hfind hbehind
    have hlt := rfind_lt hfind
    have hgt := of_decide_eq_true hbehind
    omega

/-- A colon with no slash behind it, and no other colon, is that of the tag. -/
theorem tagColon_append {name tag : Text} (hcolon : ':' ∉ tag) (hslash : '/' ∉ tag) :
    tagColon (name ++ ':' :: tag) = some name.length := by
  have hslash' : '/' ∉ ':' :: tag := by
    rw [List.mem_cons, not_or]
    exact ⟨by decide, hslash⟩
  rw [tagColon, rfind_append_cons hcolon, rfind_append_of_not_mem hslash', Option.filter_eq_some_iff]
  refine ⟨rfl, ?_⟩
  cases hfind : rfind '/' name with
  | none => rfl
  | some slash => exact decide_eq_true (rfind_lt hfind)

theorem tagColon_eq_some {colon : Nat} (h : tagColon s = some colon) :
    ∃ name tag, s = name ++ ':' :: tag ∧ name.length = colon ∧ ':' ∉ tag ∧ '/' ∉ tag := by
  obtain ⟨hfind, hbehind⟩ := Option.filter_eq_some_iff.1 h
  obtain ⟨name, tag, rfl, hcolon, rfl⟩ := rfind_eq_some.1 hfind
  refine ⟨name, tag, rfl, rfl, hcolon, fun hmem => ?_⟩
  obtain ⟨i, hslash⟩ := rfind_append_of_mem (List.mem_cons_of_mem ':' hmem) name
  rw [hslash] at hbehind
  have hlt := of_decide_eq_true hbehind
  omega

/-! ## References -/

/-- Nothing, a tag, or the digest of the descriptor. -/
inductive IsSuffix (descriptorDigest : Text) : Text → Prop
  | none : IsSuffix descriptorDigest []
  | tag {tag : Text} (htag : IsTag tag) : IsSuffix descriptorDigest (':' :: tag)
  | digest {digest : Text} (hdigest : IsDigest digest) (hsame : eqIgnoreAsciiCase digest descriptorDigest = true) :
    IsSuffix descriptorDigest ('@' :: digest)

structure IsReference (descriptorDigest s : Text) : Prop where
  ascii : ∀ c ∈ s, c.toNat < 128
  short : s.length ≤ 384
  form : ∃ name suffix, s = name ++ suffix ∧ IsName name ∧ name.length ≤ 255 ∧ IsSuffix descriptorDigest suffix

/-- What is done with the part before the digest. -/
def validTagged (pinned : Bool) (taggedName : Text) : Bool :=
  let (name, tag) := match tagColon taggedName with
    | some colon => (taggedName.take colon, some (taggedName.drop (colon + 1)))
    | none => (taggedName, none)
  if 255 < name.length || tag.any fun tag => pinned || !validTag tag then false
  else (pathOf name).any fun path => (path.splitOn '/').all validComponent

theorem validTagged_name {pinned : Bool} (h : tagColon s = none) :
    validTagged pinned s = true ↔ IsName s ∧ s.length ≤ 255 := by
  unfold validTagged
  rw [h]
  simp only [Option.any_none, Bool.or_false, decide_eq_true_eq]
  split
  next hlong => exact ⟨nofun, fun h => absurd h.2 (not_le.2 hlong)⟩
  next hshort => rw [isName_iff, and_iff_left (not_lt.1 hshort)]

theorem validTagged_tag {pinned : Bool} {name tag : Text} (h : tagColon (name ++ ':' :: tag) = some name.length) :
    validTagged pinned (name ++ ':' :: tag) = true ↔ IsName name ∧ name.length ≤ 255 ∧ pinned = false ∧ IsTag tag := by
  have hdrop : (name ++ ':' :: tag).drop (name.length + 1) = tag := by simp
  unfold validTagged
  rw [h]
  simp only [List.take_left, hdrop, Option.any_some, Bool.or_eq_true, decide_eq_true_eq, Bool.not_eq_true']
  split
  next hbad =>
    refine ⟨nofun, fun ⟨_, hshort, hpinned, htag⟩ => ?_⟩
    rcases hbad with hlong | hpinned' | htag'
    · exact absurd hshort (not_le.2 hlong)
    · rw [hpinned] at hpinned'
      cases hpinned'
    · rw [validTag_iff.2 htag] at htag'
      cases htag'
  next hgood =>
    simp only [not_or, not_lt, Bool.not_eq_true, Bool.not_eq_false] at hgood
    rw [isName_iff, ← validTag_iff]
    exact ⟨fun hname => ⟨hname, hgood⟩, fun h => h.1⟩

/-- A name, or a name and a tag if there is no digest. -/
theorem validTagged_iff {pinned : Bool} : validTagged pinned s = true ↔ (IsName s ∧ s.length ≤ 255) ∨
    pinned = false ∧ ∃ name tag, s = name ++ ':' :: tag ∧ IsName name ∧ name.length ≤ 255 ∧ IsTag tag := by
  cases hcolon : tagColon s with
  | none =>
    rw [validTagged_name hcolon]
    refine ⟨.inl, fun h => h.resolve_right ?_⟩
    rintro ⟨-, name, tag, rfl, -, -, htag⟩
    rw [tagColon_append (tag_not_mem htag (by decide)) (tag_not_mem htag (by decide))] at hcolon
    cases hcolon
  | some colon =>
    obtain ⟨name, tag, rfl, rfl, -, -⟩ := tagColon_eq_some hcolon
    rw [validTagged_tag hcolon]
    constructor
    · rintro ⟨hname, hshort, hpinned, htag⟩
      exact .inr ⟨hpinned, name, tag, rfl, hname, hshort, htag⟩
    · rintro (⟨hname, -⟩ | ⟨hpinned, name', tag', heq, hname, hshort, htag⟩)
      · rw [tagColon_name hname] at hcolon
        cases hcolon
      · rw [heq, tagColon_append (tag_not_mem htag (by decide)) (tag_not_mem htag (by decide))] at hcolon
        obtain ⟨rfl, hrest⟩ := List.append_inj heq.symm (Option.some.inj hcolon)
        obtain ⟨-, rfl⟩ := List.cons.inj hrest
        exact ⟨hname, hshort, hpinned, htag⟩

/-- The digest of a reference is behind its first at sign. -/
theorem validAppleImageReference_eq (s descriptorDigest : Text) : validAppleImageReference s descriptorDigest =
    if s = [] || 384 < s.length || !s.all (·.toNat < 128) then false
    else match splitOnce '@' s with
      | some (taggedName, digest) =>
        if !validAppleImageDigest digest || !eqIgnoreAsciiCase digest descriptorDigest then false else validTagged true taggedName
      | none => validTagged false s := by
  unfold validAppleImageReference
  cases splitOnce '@' s <;> rfl

def HasForm (descriptorDigest s : Text) : Prop :=
  ∃ name suffix, s = name ++ suffix ∧ IsName name ∧ name.length ≤ 255 ∧ IsSuffix descriptorDigest suffix

theorem hasForm_iff_of_not_mem (h : '@' ∉ s) : HasForm digest s ↔ validTagged false s = true := by
  rw [validTagged_iff]
  constructor
  · rintro ⟨name, suffix, rfl, hname, hshort, hsuffix⟩
    cases hsuffix with
    | none =>
      rw [List.append_nil]
      exact .inl ⟨hname, hshort⟩
    | tag htag => exact .inr ⟨rfl, name, _, rfl, hname, hshort, htag⟩
    | digest => exact absurd (List.mem_append_right _ List.mem_cons_self) h
  · rintro (⟨hname, hshort⟩ | ⟨-, name, tag, rfl, hname, hshort, htag⟩)
    · exact ⟨s, [], (List.append_nil s).symm, hname, hshort, .none⟩
    · exact ⟨name, _, rfl, hname, hshort, .tag htag⟩

theorem hasForm_iff_of_append {taggedName pinned : Text} (h : '@' ∉ taggedName) :
    HasForm digest (taggedName ++ '@' :: pinned) ↔
    IsDigest pinned ∧ eqIgnoreAsciiCase pinned digest = true ∧ validTagged true taggedName = true := by
  rw [validTagged_iff]
  constructor
  · rintro ⟨name, suffix, heq, hname, hshort, hsuffix⟩
    have hat : '@' ∈ name ++ suffix := heq ▸ List.mem_append_right _ List.mem_cons_self
    have hin : '@' ∈ suffix := (List.mem_append.1 hat).resolve_left (name_not_mem hname)
    cases hsuffix with
    | none => cases hin
    | tag htag =>
      rcases List.mem_cons.1 hin with hcolon | hin
      · exact absurd hcolon (by decide)
      · exact absurd hin (tag_not_mem htag (by decide))
    | digest hdigest hsame =>
      have hsplit := splitOnce_append h pinned
      rw [heq, splitOnce_append (name_not_mem hname)] at hsplit
      cases hsplit
      exact ⟨hdigest, hsame, .inl ⟨hname, hshort⟩⟩
  · rintro ⟨hdigest, hsame, ⟨hname, hshort⟩ | ⟨hpinned, -⟩⟩
    · exact ⟨taggedName, _, rfl, hname, hshort, .digest hdigest hsame⟩
    · cases hpinned

/-- The form is what the source checks, whatever its length and its characters. -/
theorem hasForm_iff : HasForm digest s ↔ (match splitOnce '@' s with
    | some (taggedName, pinned) =>
      if !validAppleImageDigest pinned || !eqIgnoreAsciiCase pinned digest then false else validTagged true taggedName
    | none => validTagged false s) = true := by
  cases hat : splitOnce '@' s with
  | none => exact hasForm_iff_of_not_mem (splitOnce_eq_none.1 hat)
  | some parts =>
    obtain ⟨taggedName, pinned⟩ := parts
    obtain ⟨rfl, hnot⟩ := splitOnce_eq_some.1 hat
    rw [hasForm_iff_of_append hnot, ← validAppleImageDigest_iff]
    dsimp only
    cases validAppleImageDigest pinned <;> cases eqIgnoreAsciiCase pinned digest <;> simp

theorem HasForm.ne_nil (h : HasForm digest s) : s ≠ [] := by
  obtain ⟨name, suffix, rfl, hname, -⟩ := h
  exact List.append_ne_nil_of_left_ne_nil hname.ne_nil _

theorem validAppleImageReference_iff : validAppleImageReference s digest = true ↔ IsReference digest s := by
  rw [validAppleImageReference_eq]
  split
  next hbad =>
    refine ⟨nofun, fun h => ?_⟩
    simp only [Bool.or_eq_true, decide_eq_true_eq, Bool.not_eq_true', List.all_eq_false] at hbad
    rcases hbad with (hempty | hlong) | ⟨c, hc, hwide⟩
    · exact absurd hempty (HasForm.ne_nil h.form)
    · exact absurd h.short (not_le.2 hlong)
    · exact absurd (h.ascii c hc) (by simpa using hwide)
  next hgood =>
    simp only [Bool.or_eq_true, decide_eq_true_eq, Bool.not_eq_true', not_or, not_lt, Bool.not_eq_false,
      List.all_eq_true] at hgood
    rw [← hasForm_iff]
    exact ⟨fun h => ⟨hgood.2, hgood.1.2, h⟩, fun h => h.form⟩

end CocoaWay.Images
