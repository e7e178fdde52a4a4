import Mathlib.Data.List.Basic

/-!
# Options of a command line

* `isOption` : an argument that begins with a dash and is more than a dash;
* `getopt` : the options in front of the operands, by the letters that take an argument;
* `getopt_operand`, `getopt_separate_iff` : an operand ends the options; a letter takes the argument behind it,
  whatever that is.
-/

namespace CocoaWay.Lib.Getopt

abbrev Text := List Char

def isOption (argument : Text) : Bool := argument.head? = some '-' && decide (1 < argument.length)

variable (takes : Char → Bool)

/-- The letters of one argument, and whether the last takes the argument behind. -/
def letters : Text → List (Char × Option Text) × Option Char
  | [] => ([], none)
  | c :: rest =>
    if takes c then if rest = [] then ([], some c) else ([(c, some rest)], none)
    else ((c, none) :: (letters rest).1, (letters rest).2)

/-- The options, with their arguments, and the operands. Two dashes end the options. -/
def getopt : List Text → Option (List (Char × Option Text) × List Text)
  | [] => some ([], [])
  | argument :: rest =>
    if argument = ['-', '-'] then some ([], rest)
    else if isOption argument then
      match letters takes argument.tail, rest with
      | (options, none), rest => (getopt rest).map fun r => (options ++ r.1, r.2)
      | (options, some c), value :: rest => (getopt rest).map fun r => (options ++ (c, some value) :: r.1, r.2)
      | (_, some _), [] => none
    else some ([], argument :: rest)

variable {takes} {argument value : Text} {rest : List Text} {c : Char}

theorem getopt_operand (h : isOption argument = false) :
    getopt takes (argument :: rest) = some ([], argument :: rest) := by
  have hne : argument ≠ ['-', '-'] := by
    rintro rfl
    cases h
  rw [getopt.eq_def]
  dsimp only
  rw [if_neg hne, h]
  rfl

theorem getopt_separate (h : takes c = true) (hc : c ≠ '-') (value : Text) (rest : List Text) :
    getopt takes (['-', c] :: value :: rest) = (getopt takes rest).map fun r => ((c, some value) :: r.1, r.2) := by
  have hne : ['-', c] ≠ ['-', '-'] := fun heq => hc (List.cons.inj (List.cons.inj heq).2).1
  have hoption : isOption ['-', c] = true := rfl
  have hletters : letters takes [c] = ([], some c) := by simp [letters, h]
  rw [getopt.eq_def]
  dsimp only
  rw [if_neg hne, hoption, if_pos rfl, List.tail_cons, hletters]
  rfl

theorem getopt_separate_iff (h : takes c = true) (hc : c ≠ '-') {options : List (Char × Option Text)}
    {operands : List Text} :
    getopt takes (['-', c] :: value :: rest) = some ((c, some value) :: options, operands) ↔
      getopt takes rest = some (options, operands) := by
  rw [getopt_separate h hc]
  constructor
  · intro heq
    obtain ⟨r, hrest, hr⟩ := Option.map_eq_some_iff.1 heq
    obtain ⟨hoptions, hoperands⟩ := Prod.mk.inj hr
    rw [hrest, ← (List.cons.inj hoptions).2, ← hoperands]
  · intro hrest
    rw [hrest]
    rfl

theorem letters_ne_nil (hne : argument ≠ []) : letters takes argument ≠ ([], none) := by
  cases argument with
  | nil => exact absurd rfl hne
  | cons c rest =>
    unfold letters
    split
    · split <;> exact nofun
    · exact nofun

theorem getopt_option (h : isOption argument = true) (rest : List Text) :
    getopt takes (argument :: rest) ≠ some ([], argument :: rest) := by
  intro heq
  rw [getopt.eq_def] at heq
  dsimp only at heq
  split at heq
  · have hlength := congrArg List.length (Prod.mk.inj (Option.some.inj heq)).2
    simp at hlength
  · have htail : argument.tail ≠ [] := by
      intro hnil
      have hlength := of_decide_eq_true (Bool.and_eq_true_iff.1 h).2
      rw [← List.length_eq_zero_iff, List.length_tail] at hnil
      omega
    split at heq
    next options hletters =>
      obtain ⟨r, -, hr⟩ := Option.map_eq_some_iff.1 heq
      have hoptions := (List.append_eq_nil_iff.1 (Prod.mk.inj hr).1).1
      exact letters_ne_nil htail (hletters.trans (by rw [hoptions]))
    next options c value rest' hletters =>
      obtain ⟨r, -, hr⟩ := Option.map_eq_some_iff.1 heq
      exact absurd (List.append_eq_nil_iff.1 (Prod.mk.inj hr).1).2 nofun
    next => cases heq

end CocoaWay.Lib.Getopt
