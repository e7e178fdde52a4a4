import CocoaWay.Lib.Split

/-!
# The text of an IPv6 address

Eight groups of hexadecimal digits with colons between them. The last two may be an IPv4 address, and one run of
groups may be left out between two colons.

* `isIpv4`, `groupCount`, `isIpv6` : what the parser of the standard library accepts;
* `chars_of_isIpv6` : the characters of an address.
-/

namespace CocoaWay.Lib

variable {s : List Char} {c : Char} {n : Nat}

/-- `is_ascii_hexdigit`. -/
def isHexDigit (c : Char) : Bool := c.isDigit || ('a' ≤ c && c ≤ 'f') || ('A' ≤ c && c ≤ 'F')

/-- The value of decimal digits. -/
def decimalValue (s : List Char) : Nat := s.foldl (fun n c => 10 * n + (c.toNat - '0'.toNat)) 0

/-- Up to three digits, without a zero before others. -/
def isOctet (s : List Char) : Bool :=
  s ≠ [] && s.length ≤ 3 && s.all Char.isDigit && (s.length = 1 || s.head? ≠ some '0') && decimalValue s ≤ 255

def isIpv4 (s : List Char) : Bool := (s.splitOn '.').length = 4 && (s.splitOn '.').all isOctet

/-- Up to four hexadecimal digits. -/
def isGroup (s : List Char) : Bool := s ≠ [] && s.length ≤ 4 && s.all isHexDigit

/-- The number of groups between colons; an IPv4 address at the end, where one may be, is two. -/
def groupCount (ipv4 : Bool) (s : List Char) : Option Nat :=
  if s = [] then some 0
  else
    let parts := s.splitOn ':'
    if parts.all isGroup then some parts.length
    else if ipv4 && parts.dropLast.all isGroup && parts.getLast?.any isIpv4 then some (parts.length + 1)
    else none

/-- What is before and after the first two colons together. -/
def splitGap : List Char → Option (List Char × List Char)
  | ':' :: ':' :: rest => some ([], rest)
  | c :: rest => (splitGap rest).map fun parts => (c :: parts.1, parts.2)
  | [] => none

/-- `Ipv6Addr::from_str`: the gap stands for a group at least. -/
def isIpv6 (s : List Char) : Bool :=
  match splitGap s with
  | none => groupCount true s = some 8
  | some (head, tail) =>
    match groupCount false head, groupCount true tail with
    | some n, some m => n + m ≤ 7
    | _, _ => false

/-! ## Characters -/

theorem eq_of_splitGap {parts : List Char × List Char} (h : splitGap s = some parts) :
    s = parts.1 ++ ':' :: ':' :: parts.2 := by
  induction s using splitGap.induct generalizing parts with
  | case1 rest =>
    cases h
    rfl
  | case2 c rest hne ih =>
    rw [splitGap] at h
    · obtain ⟨parts', hparts, rfl⟩ := Option.map_eq_some_iff.1 h
      exact congrArg (c :: ·) (ih hparts)
    · exact hne
  | case3 => cases h

theorem chars_of_isIpv4 (h : isIpv4 s = true) (hc : c ∈ s) : isHexDigit c = true ∨ c = '.' := by
  rw [isIpv4, Bool.and_eq_true, List.all_eq_true] at h
  rcases mem_splitOn hc with hdot | ⟨part, hpart, hc⟩
  · exact .inr hdot
  · have hoctet := h.2 part hpart
    simp only [isOctet, Bool.and_eq_true, List.all_eq_true] at hoctet
    exact .inl (by rw [isHexDigit, hoctet.1.1.2 c hc, Bool.true_or, Bool.true_or])

theorem chars_of_groupCount {ipv4 : Bool} (h : groupCount ipv4 s = some n) (hc : c ∈ s) :
    isHexDigit c = true ∨ c = ':' ∨ c = '.' := by
  have hgroup : ∀ part, isGroup part = true → c ∈ part → isHexDigit c = true := fun part hpart hc => by
    rw [isGroup, Bool.and_eq_true, List.all_eq_true] at hpart
    exact hpart.2 c hc
  unfold groupCount at h
  split at h
  next hempty =>
    rw [hempty] at hc
    exact absurd hc List.not_mem_nil
  next hne =>
    rcases mem_splitOn (c := ':') hc with hcolon | ⟨part, hpart, hc⟩
    · exact .inr (.inl hcolon)
    · dsimp only at h
      split at h
      next hall => exact .inl (hgroup part (List.all_eq_true.1 hall part hpart) hc)
      next =>
        split at h
        next hlast =>
          rw [Bool.and_eq_true, Bool.and_eq_true, List.all_eq_true, Option.any_eq_true] at hlast
          obtain ⟨⟨-, hfront⟩, last, hgetLast, hlast⟩ := hlast
          rw [← List.dropLast_append_getLast? last hgetLast, List.mem_append, List.mem_singleton] at hpart
          rcases hpart with hpart | rfl
          · exact .inl (hgroup part (hfront part hpart) hc)
          · exact (chars_of_isIpv4 hlast hc).imp_right .inr
        · cases h

theorem chars_of_isIpv6 (h : isIpv6 s = true) (hc : c ∈ s) : isHexDigit c = true ∨ c = ':' ∨ c = '.' := by
  unfold isIpv6 at h
  split at h
  next => exact chars_of_groupCount (of_decide_eq_true h) hc
  next head tail hgap =>
    rw [eq_of_splitGap hgap, List.mem_append, List.mem_cons, List.mem_cons] at hc
    cases hhead : groupCount false head with
    | none =>
      rw [hhead] at h
      cases h
    | some n =>
      cases htail : groupCount true tail with
      | none =>
        rw [hhead, htail] at h
        cases h
      | some m =>
        rcases hc with hc | hc | hc | hc
        · exact chars_of_groupCount hhead hc
        · exact .inr (.inl hc)
        · exact .inr (.inl hc)
        · exact chars_of_groupCount htail hc

example : isIpv6 "2001:db8::192.0.2.33".toList = true ∧ isIpv6 "1::2::3".toList = false := by decide

end CocoaWay.Lib
