import CocoaWay.Control.Selectors

/-!
# Resource arguments of a profile

* `resourceSizeBytes`, `validCpus` : the checks of the fields;
* `runtimeArgValue`, `resourceArgValue` : the reader; `unrelatedArgs`, `configuredResourceArgs` : the rewriter.
-/

namespace CocoaWay.Panel
open Launch Control

/-! ## Numbers -/

def digitsValue (digits : List Char) : Nat := digits.foldl (fun n c => 10 * n + (c.toNat - 48)) 0

/-- The text behind an optional plus sign. -/
def unsigned (s : List Char) : List Char :=
  match s with
  | '+' :: rest => rest
  | all => all

/-- `parse::<u32>`, for a positive number. -/
def isPositiveU32 (s : String) : Bool :=
  let digits := unsigned s.toList
  !digits.isEmpty && digits.all isAsciiDigit && 0 < digitsValue digits && digitsValue digits < 2 ^ 32

/-- The exponent of a decimal: none, or an `e`, a sign and digits. -/
def exponent (s : List Char) : Option Int :=
  match s with
  | [] => some 0
  | c :: rest =>
    let (negative, digits) := match rest with
      | '-' :: digits => (true, digits)
      | _ => (false, unsigned rest)
    if (c = 'e' ∨ c = 'E') ∧ digits ≠ [] ∧ digits.all isAsciiDigit then
      some (if negative then -digitsValue digits else digitsValue digits)
    else none

/-- The digits and the power of ten of an unsigned decimal. -/
def decimal (s : List Char) : Option (Nat × Int) :=
  let (whole, rest) := s.span isAsciiDigit
  let (fraction, rest) := match rest with
    | '.' :: rest => rest.span isAsciiDigit
    | rest => ([], rest)
  if whole = [] ∧ fraction = [] then none
  else (exponent rest).map fun e => (digitsValue (whole ++ fraction), e - fraction.length)

/-- Whether `m * 10 ^ e` is rounded to a positive finite 64-bit number: it is above half the smallest one, and below
the middle between the largest one and the next power of two. -/
def roundsPositive (m : Nat) (e : Int) : Bool :=
  match e with
  | .ofNat e => 0 < m && m * 10 ^ e < 2 ^ 1024 - 2 ^ 970
  | .negSucc k => 10 ^ (k + 1) < m * 2 ^ 1075 && m < (2 ^ 1024 - 2 ^ 970) * 10 ^ (k + 1)

/-- `parse::<f64>`, for a finite positive number. -/
def isPositiveF64 (s : String) : Bool := (decimal (unsigned s.toList)).any fun (m, e) => roundsPositive m e

/-- `char::to_ascii_uppercase`. -/
def toAsciiUppercase (c : Char) : Char := if 97 ≤ c.toNat ∧ c.toNat ≤ 122 then Char.ofNat (c.toNat - 32) else c

def power (suffix : List Char) : Option Nat :=
  match String.ofList (suffix.map toAsciiUppercase) with
  | "" => some 0
  | "K" => some 1
  | "M" => some 2
  | "G" => some 3
  | "T" => some 4
  | "P" => some 5
  | _ => none

def resourceSizeBytes (value : String) : Option Nat :=
  let (digits, suffix) := value.toList.span isAsciiDigit
  let number := digitsValue digits
  if digits = [] ∨ 2 ^ 128 ≤ number ∨ number = 0 then none
  else
    (power suffix).bind fun power => if number * 1024 ^ power < 2 ^ 128 then some (number * 1024 ^ power) else none

/-! ## Reading and rewriting -/

inductive Resource
  | cpus | memory | shm | platform
  deriving DecidableEq

def Resource.all : List Resource := [cpus, memory, shm, platform]

def Resource.flag : Resource → String
  | cpus => "--cpus"
  | memory => "--memory"
  | shm => "--shm-size"
  | platform => "--platform"

def startsWith (argument start : String) : Bool := start.toList.isPrefixOf argument.toList

def runtimeArgValue (flag : String) : List String → Option String
  | [] => none
  | argument :: rest =>
    if argument = flag then rest.head?
    else if startsWith argument (flag ++ "=") then some (String.ofList (argument.toList.drop (flag.length + 1)))
    else runtimeArgValue flag rest

def resourceArgValue (arguments : List String) (flag runtime : String) : Option String :=
  (runtimeArgValue flag arguments).or
    (if flag = "--cpus" ∧ runtime ≠ "docker" then runtimeArgValue "-c" arguments
    else if flag = "--memory" then runtimeArgValue "-m" arguments
    else none)

/-- `split('=').next()`. -/
def flagOf (argument : String) : String := String.ofList (argument.toList.takeWhile (· != '='))

def controlled (docker : Bool) (flag : String) : Bool :=
  flag ∈ ["--cpus", "--memory", "-m", "--shm-size", "--platform"] || (flag = "-c" && !docker)

/-- The loop over the arguments. -/
def unrelatedArgs (docker : Bool) : List String → List String
  | [] => []
  | argument :: rest =>
    let flag := flagOf argument
    if controlled docker flag then
      match rest with
      | [] => []
      | value :: rest =>
        if !argument.toList.contains '=' && !startsWith value "-" then unrelatedArgs docker rest
        else unrelatedArgs docker (value :: rest)
    else if flag ≠ "--rosetta" then argument :: unrelatedArgs docker rest
    else unrelatedArgs docker rest

/-- The options that set the values which are not empty. -/
def settings (values : Resource → String) : List String :=
  Resource.all.flatMap fun r => if values r = "" then [] else [r.flag, values r]

def validCpus (runtime cpus : String) : Bool := if runtime = "docker" then isPositiveF64 cpus else isPositiveU32 cpus

def configuredResourceArgs (original : List String) (runtime : String) (values : Resource → String) (rosetta : Bool) :
    Except String (List String) :=
  let values := fun r => trim (values r)
  if values .cpus ≠ "" ∧ !validCpus runtime (values .cpus) then
    .error "CPUs must be positive (whole numbers for Apple Container), or empty for the runtime default."
  else if values .memory ≠ "" ∧ resourceSizeBytes (values .memory) = none then
    .error "Memory must be a positive size such as 512M or 4G."
  else if values .shm ≠ "" ∧ resourceSizeBytes (values .shm) = none then
    .error "Shared memory must be a positive size such as 512M or 4G."
  else if (resourceSizeBytes (values .memory)).any fun memory => (resourceSizeBytes (values .shm)).any (memory < ·) then
    .error "Shared memory cannot exceed the container memory limit."
  else if values .platform ∉ ["", "linux/arm64", "linux/amd64"] then
    .error "Select linux/arm64, linux/amd64, or leave Platform empty."
  else if rosetta ∧ runtime ∉ ["container", "apple", "apple-container"] then
    .error "Rosetta requires Apple Container; it is not a Docker runtime flag."
  else
    .ok (unrelatedArgs (runtime = "docker") original ++ settings values ++ if rosetta then ["--rosetta"] else [])

end CocoaWay.Panel
