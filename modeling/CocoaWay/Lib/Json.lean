import Mathlib.Tactic.TypeStar

/-!
# JSON values

* `Json` : a JSON value; an object is its list of entries, looked up from the front;
* `Json.get`, `Json.index` : lookup of a key, with `none` or `null` where there is none;
* `Json.structFields` : the fields that a derived reader of a structure takes;
* `Json.same` : equality of values, in which the order of an object's entries does not count.
-/

namespace CocoaWay.Lib

/-- A JSON number: an integer that fits `u64`, another integer, or a decimal by its text. -/
inductive JsonNumber
  | unsigned (n : Nat)
  | negative (n : Int)
  | decimal (text : String)
  deriving DecidableEq

inductive Json
  | null
  | bool (b : Bool)
  | number (n : JsonNumber)
  | string (text : String)
  | array (values : List Json)
  | object (entries : List (String × Json))

namespace Json

/-- The value of a key in the entries of an object. -/
def entry (key : String) (entries : List (String × Json)) : Option Json :=
  (entries.find? fun e => e.1 == key).map Prod.snd

def asStr : Json → Option String
  | string text => some text
  | _ => none

def asU64 : Json → Option Nat
  | number (.unsigned n) => some n
  | _ => none

def asBool : Json → Option Bool
  | bool b => some b
  | _ => none

def asArray : Json → Option (List Json)
  | array values => some values
  | _ => none

def asObject : Json → Option (List (String × Json))
  | object entries => some entries
  | _ => none

def isNull : Json → Bool
  | null => true
  | _ => false

def get (key : String) : Json → Option Json
  | object entries => entry key entries
  | _ => none

/-- Lookup with `null` for a missing key and for a value that is no object. -/
def index (key : String) (v : Json) : Json := (v.get key).getD null

/-- An object with a key set to a value; other values stay as they are. -/
def set (key : String) (v : Json) : Json → Json
  | object entries => object ((key, v) :: entries.filter fun e => e.1 != key)
  | w => w

/-- The fields of a derived `Deserialize`: an object gives each at most once and may give others, an array gives all of
them in order. -/
def structFields (keys : List String) : Json → Option (List (Option Json))
  | .object entries =>
    if keys.all fun key => (entries.filter fun e => e.1 == key).length ≤ 1 then
      some (keys.map fun key => entry key entries)
    else none
  | .array values => if values.length = keys.length then some (values.map some) else none
  | _ => none

mutual

/-- Equality of values; objects are compared as maps. -/
def same : Json → Json → Bool
  | null, null => true
  | bool a, bool b => a == b
  | number a, number b => a == b
  | string a, string b => a == b
  | array as, array bs => sameItems as bs
  | object as, object bs => as.length == bs.length && sameEntries as bs
  | _, _ => false

def sameItems : List Json → List Json → Bool
  | [], [] => true
  | a :: as, b :: bs => same a b && sameItems as bs
  | _, _ => false

def sameEntries : List (String × Json) → List (String × Json) → Bool
  | [], _ => true
  | (key, a) :: as, bs =>
    match entry key bs with
    | some b => same a b && sameEntries as bs
    | none => false

end

theorem mem_of_entry {key : String} {entries : List (String × Json)} {v : Json} (h : entry key entries = some v) :
    (key, v) ∈ entries := by
  unfold entry at h
  obtain ⟨⟨key', v'⟩, hfind, rfl⟩ := Option.map_eq_some_iff.1 h
  have hkey := List.find?_some hfind
  obtain rfl : key' = key := by simpa using hkey
  exact List.mem_of_find?_eq_some hfind

@[simp] theorem get_object (key : String) (entries : List (String × Json)) :
    (object entries).get key = entry key entries := rfl

theorem eq_string_of_asStr {v : Json} {text : String} (h : v.asStr = some text) : v = .string text := by
  unfold asStr at h
  split at h
  · rw [Option.some.inj h]
  · exact absurd h nofun

theorem index_eq_of_get {v w : Json} {key : String} (h : v.get key = some w) : v.index key = w := by
  rw [index, h]
  rfl

end Json

end CocoaWay.Lib
