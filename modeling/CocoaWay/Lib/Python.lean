import Mathlib.Algebra.Ring.Int.Defs
import Mathlib.Algebra.Ring.Nat
import Mathlib.Data.Rat.Defs

/-!
# Values of Python programs

* `Py` : what `json.loads` gives;
* `Dict.get`, `Dict.has` : a key of a dictionary;
* `PyError` : the exceptions.
-/

namespace CocoaWay.Lib.Python

/-- A finite float is the number that `str` writes for it; a string with a lone surrogate has no UTF-8 form. The
entries of a dictionary have different keys. -/
inductive Py
  | none
  | bool (b : Bool)
  | int (n : Int)
  | float (x : Option Rat)
  | str (text : String)
  | lone (points : List Nat)
  | list (values : List Py)
  | dict (entries : List (String × Py))

inductive PyError
  | valueError (message : String)
  | typeError
  | keyError (key : String)
  | indexError
  | zeroDivisionError
  | overflowError
  | unicodeError

/-- A number of `bits` bits. -/
def unsigned (bits : Nat) (n : Int) : Option Int := if 0 ≤ n ∧ n < 2 ^ bits then some n else none

namespace Py

def u64 : Py → Option Int
  | int n => unsigned 64 n
  | _ => Option.none

def isU64 (v : Py) : Bool := v.u64.isSome

/-- The operand of an arithmetic operation on integers. -/
def operand : Py → Except PyError Int
  | int n => .ok n
  | _ => .error .typeError

def isInt (v : Py) (n : Int) : Bool :=
  match v with
  | int m => m = n
  | _ => false

def isStr (v : Py) (text : String) : Bool :=
  match v with
  | str t => t = text
  | _ => false

def isBool (v : Py) (b : Bool) : Bool :=
  match v with
  | bool b' => b' = b
  | _ => false

theorem isU64_iff {v : Py} : v.isU64 = true ↔ ∃ n : Int, v = int n ∧ 0 ≤ n ∧ n < 2 ^ 64 := by
  cases v <;> simp [isU64, u64, unsigned]

end Py

abbrev Dict := List (String × Py)

namespace Dict

/-- `d.get(key)`. -/
def get (d : Dict) (key : String) : Py := (d.lookup key).getD .none

/-- `key in d`. -/
def has (d : Dict) (key : String) : Bool := (d.lookup key).isSome

/-- A key that is absent, or has a value that passes. -/
def optional (d : Dict) (key : String) (p : Py → Bool) : Bool := (d.lookup key).all p

def u64 (d : Dict) (key : String) : Option Int := (d.get key).u64

end Dict

end CocoaWay.Lib.Python
