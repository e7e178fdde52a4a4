import Mathlib.Tactic.Common
import Mathlib.Tactic.TypeStar

/-!
# Fallible steps, and contracts of programs that may fail

* `ok_of_bind`, `bind_of_ok` : a sequence of steps that succeeds, taken apart and put together;
* `forM_ok`, `mapM_ok` : checks of all elements of a list, and steps over a list that all succeed;
* `ok_of_getD` : an optional value taken for a fallible one;
* `Ends m Q E s` : the program, run from `s`, ends with a result and a state that meet `Q`, or fails in a state that
  meets `E`; `ends_bind` and its like : a run, step by step;
* `Ends.mono`, `Ends.bind`, `ends_forM` : weaker ends, programs one after the other, and loops.
-/

namespace CocoaWay.Lib

/-! ## Steps -/

theorem ok_of_bind {ε α β : Type} {x : Except ε α} {f : α → Except ε β} {b : β} (h : (x >>= f) = .ok b) :
    ∃ a, x = .ok a ∧ f a = .ok b := by
  cases x with
  | error e => exact absurd h nofun
  | ok a => exact ⟨a, rfl, h⟩

theorem bind_of_ok {ε α β : Type} {x : Except ε α} {a : α} (h : x = .ok a) (f : α → Except ε β) : (x >>= f) = f a := by
  rw [h]
  rfl

theorem forM_ok {ε α : Type} {f : α → Except ε Unit} {l : List α} : l.forM f = .ok () ↔ ∀ a ∈ l, f a = .ok () := by
  induction l with
  | nil => exact ⟨fun _ a ha => absurd ha List.not_mem_nil, fun _ => rfl⟩
  | cons a l ih =>
    rw [List.forall_mem_cons, ← ih]
    constructor
    · intro h
      obtain ⟨_, ha, hl⟩ := ok_of_bind h
      exact ⟨ha, hl⟩
    · rintro ⟨ha, hl⟩
      exact (bind_of_ok ha _).trans hl

theorem ok_of_getD {ε α : Type} {x : Option α} {e : ε} {a : α} (h : (x.map Except.ok).getD (.error e) = .ok a) :
    x = some a := by
  cases x with
  | none => exact absurd h nofun
  | some b => rw [Except.ok.inj h]

theorem mapM_ok {ε α β : Type} {f : α → Except ε β} {g : α → β} {l : List α} (h : ∀ a ∈ l, f a = .ok (g a)) :
    l.mapM f = .ok (l.map g) := by
  induction l with
  | nil => rfl
  | cons a l ih =>
    rw [List.mapM_cons, h a List.mem_cons_self, ih fun b hb => h b (List.mem_cons_of_mem a hb)]
    rfl

theorem getElem?_mapM {α β : Type} {f : α → Option β} {l : List α} {l' : List β} (h : l.mapM f = some l') (i : Nat) :
    l'[i]? = l[i]?.bind f := by
  induction l generalizing l' i with
  | nil =>
    obtain rfl := Option.some.inj h
    rfl
  | cons a l ih =>
    rw [List.mapM_cons] at h
    obtain ⟨b, hb, h⟩ := Option.bind_eq_some_iff.1 h
    obtain ⟨bs, hbs, h⟩ := Option.bind_eq_some_iff.1 h
    obtain rfl := Option.some.inj h
    cases i with
    | zero => exact hb.symm
    | succ i => exact ih hbs i

theorem length_mapM {α β : Type} {f : α → Option β} {l : List α} {l' : List β} (h : l.mapM f = some l') :
    l'.length = l.length := by
  induction l generalizing l' with
  | nil =>
    obtain rfl := Option.some.inj h
    rfl
  | cons a l ih =>
    rw [List.mapM_cons] at h
    obtain ⟨b, -, h⟩ := Option.bind_eq_some_iff.1 h
    obtain ⟨bs, hbs, h⟩ := Option.bind_eq_some_iff.1 h
    obtain rfl := Option.some.inj h
    exact congrArg (· + 1) (ih hbs)

theorem mapM_set {α β : Type} {f : α → Option β} {l : List α} {l' : List β} (h : l.mapM f = some l') {a : α} {b : β}
    (ha : f a = some b) (i : Nat) : (l.set i a).mapM f = some (l'.set i b) := by
  induction l generalizing l' i with
  | nil =>
    obtain rfl := Option.some.inj h
    rfl
  | cons c l ih =>
    rw [List.mapM_cons] at h
    obtain ⟨d, hd, h⟩ := Option.bind_eq_some_iff.1 h
    obtain ⟨ds, hds, h⟩ := Option.bind_eq_some_iff.1 h
    obtain rfl := Option.some.inj h
    cases i with
    | zero =>
      rw [List.set_cons_zero, List.mapM_cons, ha, hds]
      rfl
    | succ i =>
      rw [List.set_cons_succ, List.mapM_cons, hd, ih hds i]
      rfl

/-! ## Contracts -/

variable {ε σ α β : Type} {m : EStateM ε σ α} {f : α → EStateM ε σ β} {Q Q' : α → σ → Prop} {R : β → σ → Prop}
  {E E' : σ → Prop} {s : σ}

def Ends (m : EStateM ε σ α) (Q : α → σ → Prop) (E : σ → Prop) (s : σ) : Prop :=
  match m s with
  | .ok a s' => Q a s'
  | .error _ s' => E s'

theorem ends_pure {a : α} : Ends (pure a : EStateM ε σ α) Q E s ↔ Q a s := Iff.rfl

theorem ends_throw {e : ε} : Ends (throw e : EStateM ε σ α) Q E s ↔ E s := Iff.rfl

theorem ends_get {Q : σ → σ → Prop} : Ends (get : EStateM ε σ σ) Q E s ↔ Q s s := Iff.rfl

theorem ends_set {Q : PUnit → σ → Prop} {s' : σ} : Ends (set s' : EStateM ε σ PUnit) Q E s ↔ Q ⟨⟩ s' := Iff.rfl

theorem ends_modify {Q : PUnit → σ → Prop} {g : σ → σ} :
    Ends (modify g : EStateM ε σ PUnit) Q E s ↔ Q ⟨⟩ (g s) := Iff.rfl

theorem ends_bind : Ends (m >>= f) R E s ↔ Ends m (fun a => Ends (f a) R E) E s := by
  unfold Ends
  change (match EStateM.bind m f s with | .ok a s' => R a s' | .error _ s' => E s') ↔ _
  unfold EStateM.bind
  cases m s <;> rfl

theorem Ends.mono (h : Ends m Q E s) (hQ : ∀ a s', Q a s' → Q' a s') (hE : ∀ s', E s' → E' s') : Ends m Q' E' s := by
  unfold Ends at h ⊢
  split at h
  · exact hQ _ _ h
  · exact hE _ h

theorem Ends.bind (h : Ends m Q E s) (hf : ∀ a s', Q a s' → Ends (f a) R E s') : Ends (m >>= f) R E s :=
  ends_bind.2 (h.mono hf fun _ hE => hE)

theorem ends_forM {I : σ → Prop} {l : List α} {g : α → EStateM ε σ PUnit}
    (hg : ∀ a ∈ l, ∀ s, I s → Ends (g a) (fun _ => I) E s) (hs : I s) : Ends (l.forM g) (fun _ => I) E s := by
  induction l generalizing s with
  | nil => exact hs
  | cons a l ih =>
    exact (hg a List.mem_cons_self s hs).bind fun _ s' hs' => ih (fun b hb => hg b (List.mem_cons_of_mem a hb)) hs'

end CocoaWay.Lib
