import CocoaWay.CommandCache.Guards
import CocoaWay.Launch.State
import CocoaWay.Lib.Ipv6

/-!
# Image references

* `validAppleImageDigest`, `validAppleImageDomain`, `validComponent` : the parts of a reference;
* `validAppleImageReference` : a reference with the digest of its descriptor.

The source reads bytes. Whatever it accepts is ASCII, so that a character is a byte.
-/

namespace CocoaWay.Images
open CommandCache (Text)
open Launch (toAsciiLowercase)
open Lib

/-! ## Texts -/

/-- `strip_prefix`. -/
def stripPrefix (start s : Text) : Option Text := if start.isPrefixOf s then some (s.drop start.length) else none

def eqIgnoreAsciiCase (a b : Text) : Bool := a.map toAsciiLowercase = b.map toAsciiLowercase

/-! ## Parts -/

def validAppleImageDigest (digest : Text) : Bool :=
  (stripPrefix "sha256:".toList digest).any fun hash => hash.length = 64 && hash.all isHexDigit

/-- Digits with the value of a `u16` that is not 0. -/
def validPort (port : Text) : Bool :=
    port ≠ [] && port.all Char.isDigit && (0 < decimalValue port && decimalValue port ≤ 65535)

def validLabel (label : Text) : Bool :=
  label ≠ [] && label.length ≤ 63 && label.head?.any Char.isAlphanum && label.getLast?.any Char.isAlphanum &&
    label.all fun c => c.isAlphanum || c = '-'

def validAppleImageDomain (domain : Text) : Bool :=
  match stripPrefix ['['] domain with
  | some address => (splitOnce ']' address).any fun (address, suffix) =>
    isIpv6 address && (suffix = [] || (stripPrefix [':'] suffix).any validPort)
  | none =>
    match rfind ':' domain with
    | some colon => validPort (domain.drop (colon + 1)) && ((domain.take colon).splitOn '.').all validLabel
    | none => (domain.splitOn '.').all validLabel

/-- A lowercase letter or a digit. -/
def isWordCharacter (c : Char) : Bool := c.isLower || c.isDigit

/-- What is behind a separator: a dot, one or two underscores, or dashes. -/
def afterSeparator : Text → Option Text
  | '.' :: rest => some rest
  | '_' :: '_' :: rest => some rest
  | '_' :: rest => some rest
  | '-' :: rest => some (rest.dropWhile (· = '-'))
  | _ => none

theorem afterSeparator_length {s rest : Text} (h : afterSeparator s = some rest) : rest.length < s.length := by
  unfold afterSeparator at h
  split at h <;> cases h
  case h_4 rest =>
    have hdashes := (List.dropWhile_sublist (fun c => decide (c = '-')) (l := rest)).length_le
    rw [List.length_cons]
    omega
  all_goals
    simp only [List.length_cons]
    omega

/-- The loop over the words of a component. -/
def validComponent (component : Text) : Bool :=
  if component.takeWhile isWordCharacter = [] then false
  else if component.dropWhile isWordCharacter = [] then true
  else
    match _h : afterSeparator (component.dropWhile isWordCharacter) with
    | some rest => validComponent rest
    | none => false
termination_by component.length
decreasing_by
  exact Nat.lt_of_lt_of_le (afterSeparator_length _h) (List.dropWhile_sublist isWordCharacter).length_le

theorem validComponent_eq (component : Text) : validComponent component =
    if component.takeWhile isWordCharacter = [] then false
    else if component.dropWhile isWordCharacter = [] then true
    else (afterSeparator (component.dropWhile isWordCharacter)).any validComponent := by
  rw [validComponent]
  split
  · rfl
  · split
    · rfl
    · split
      next rest h => rw [h, Option.any_some]
      next h => rw [h, Option.any_none]

/-! ## References -/

def isTagStart (c : Char) : Bool := c.isAlphanum || c = '_'

def isTagCharacter (c : Char) : Bool := c.isAlphanum || ['_', '.', '-'].contains c

/-- What is before the first slash is a domain if it reads like one. -/
def readsLikeDomain (domain : Text) : Bool := domain = "localhost".toList || domain.contains '.' || domain.contains ':'

/-- The path of a name, unless its domain is not one. -/
def pathOf (name : Text) : Option Text :=
  match splitOnce '/' name with
  | some (domain, path) =>
    if readsLikeDomain domain then if validAppleImageDomain domain then some path else none else some name
  | none => some name

/-- The colon of the tag: the last one, if it is behind the last slash. -/
def tagColon (taggedName : Text) : Option Nat :=
  (rfind ':' taggedName).filter fun colon => (rfind '/' taggedName).all fun slash => slash < colon

def validTag (tag : Text) : Bool :=
  tag ≠ [] && tag.length ≤ 128 && tag.head?.any isTagStart && tag.all isTagCharacter

def validAppleImageReference (reference descriptorDigest : Text) : Bool :=
  if reference = [] || 384 < reference.length || !reference.all (·.toNat < 128) then false
  else
    let (taggedName, pinned) := match splitOnce '@' reference with
      | some (name, digest) => (name, some digest)
      | none => (reference, none)
    if pinned.any fun digest => !validAppleImageDigest digest || !eqIgnoreAsciiCase digest descriptorDigest then false
    else
      let (name, tag) := match tagColon taggedName with
        | some colon => (taggedName.take colon, some (taggedName.drop (colon + 1)))
        | none => (taggedName, none)
      if 255 < name.length || tag.any fun tag => pinned.isSome || !validTag tag then false
      else (pathOf name).any fun path => (path.splitOn '/').all validComponent

end CocoaWay.Images
