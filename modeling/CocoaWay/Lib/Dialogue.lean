import Mathlib.Tactic.TypeStar

/-!
# Programs that ask a peer

* `Dialogue Q A R` : a program that asks queries of type `Q`, goes on with the answers and ends with a result;
* `Dialogue.andThen` : the sequence of two fallible programs;
* `Dialogue.Asks P` : every query the program can ask, whatever the answers, meets `P`;
* `Dialogue.run` : the run against a peer whose `n`-th answer comes with an effect, and the log of queries and effects;
* `Asks.log` : `Asks` speaks about every run.
-/

namespace CocoaWay.Lib

inductive Dialogue (Q A R : Type)
  | done (result : R)
  | ask (query : Q) (next : A → Dialogue Q A R)

namespace Dialogue

variable {Q A R S E ε : Type} {P P' : Q → Prop}

/-- Go on with the value of a fallible program, or end with its error. -/
def andThen : Dialogue Q A (Except ε R) → (R → Dialogue Q A (Except ε S)) → Dialogue Q A (Except ε S)
  | done (.ok r), f => f r
  | done (.error e), _ => done (.error e)
  | ask q next, f => ask q fun a => (next a).andThen f

def map (f : R → S) : Dialogue Q A R → Dialogue Q A S
  | done r => done (f r)
  | ask q next => ask q fun a => (next a).map f

/-- Every query the program can ask meets `P`. -/
def Asks (P : Q → Prop) : Dialogue Q A R → Prop
  | done _ => True
  | ask q next => P q ∧ ∀ a, (next a).Asks P

/-- The result of a run that starts at the `n`-th query, and the queries with the effects of their answers. -/
def run (peer : Nat → Q → A × E) : Nat → Dialogue Q A R → R × List (Q × E)
  | _, done r => (r, [])
  | n, ask q next =>
    let (a, e) := peer n q
    let (r, log) := (next a).run peer (n + 1)
    (r, (q, e) :: log)

@[simp] theorem asks_done (r : R) : (done r : Dialogue Q A R).Asks P := trivial

theorem Asks.andThen {d : Dialogue Q A (Except ε R)} {f : R → Dialogue Q A (Except ε S)} (hd : d.Asks P)
    (hf : ∀ r, (f r).Asks P) : (d.andThen f).Asks P := by
  induction d with
  | done r =>
    cases r with
    | ok r => exact hf r
    | error e => exact asks_done _
  | ask q next ih => exact ⟨hd.1, fun a => ih a (hd.2 a)⟩

variable {d : Dialogue Q A R}

theorem run_map (peer : Nat → Q → A × E) (f : R → S) :
    ∀ n, ((d.map f).run peer n).2 = (d.run peer n).2 := by
  induction d with
  | done r => exact fun n => rfl
  | ask q next ih =>
    intro n
    simp only [map, run, ih]

theorem result_map (peer : Nat → Q → A × E) (f : R → S) :
    ∀ n, ((d.map f).run peer n).1 = f (d.run peer n).1 := by
  induction d with
  | done r => exact fun n => rfl
  | ask q next ih =>
    intro n
    simp only [map, run, ih]

/-- Every entry of the log of a run is a query that meets `P`, with the effect of some answer to it. -/
theorem Asks.log (peer : Nat → Q → A × E) (hd : d.Asks P) :
    ∀ n, ∀ x ∈ (d.run peer n).2, P x.1 ∧ ∃ k, n ≤ k ∧ x.2 = (peer k x.1).2 := by
  induction d with
  | done r =>
    intro n x hx
    exact absurd hx (List.not_mem_nil)
  | ask q next ih =>
    intro n x hx
    simp only [run] at hx
    rcases List.mem_cons.1 hx with rfl | hx
    · exact ⟨hd.1, n, Nat.le_refl n, rfl⟩
    · obtain ⟨hP, k, hk, he⟩ := ih _ (hd.2 _) _ x hx
      exact ⟨hP, k, by omega, he⟩

end Dialogue

end CocoaWay.Lib
