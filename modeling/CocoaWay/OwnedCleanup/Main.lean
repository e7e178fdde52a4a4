import CocoaWay.OwnedCleanup.Basic

/-!
# Only what the attempt owns is deleted

* `IsField`, `OwnedBy`, `Record` : what a record of an inspection has to be, on the JSON value itself;
* `deletionTarget_ok` : an accepted inspection is exactly one such record, and the target is its own identity;
* `Ended` : every way a cleanup can end, with the commands it asked the runtime for;
* `cleanup_guarantees` : what this means for every runtime.
-/

namespace CocoaWay.OwnedCleanup
open Lib
open CommandCache (Text trim lines)

/-! ## Records -/

/-- The value of the `i`-th field of a struct: the only entry of its key, or the element of an array in its place. -/
def IsField (keys : List String) (i : Nat) (v w : Json) : Prop :=
  (∃ entries key, v = .object entries ∧ keys[i]? = some key ∧ (entries.filter fun e => e.1 == key) = [(key, w)]) ∨
    ∃ values, v = .array values ∧ values.length = keys.length ∧ values[i]? = some w

/-- Exactly one entry is the owner label, and it is the token of the attempt. -/
def OwnedBy (identity : OwnedContainerIdentity) (labels : List (String × Json)) : Prop :=
  (labels.filter fun e => e.1 == OWNER_LABEL) = [(OWNER_LABEL, .string identity.ownerToken)]

/-- The record of the attempt's own instance, with the identity it reports. -/
inductive Record (identity : OwnedContainerIdentity) (v : Json) : String → Prop
  | apple {configuration : Json} {labels : List (String × Json)} :
      identity.runtime = .apple → IsField ["id", "configuration"] 1 v configuration →
      (∀ id, IsField ["id", "configuration"] 0 v id → id = .string identity.name) →
      IsField ["id", "labels"] 0 configuration (.string identity.name) →
      IsField ["id", "labels"] 1 configuration (.object labels) → OwnedBy identity labels →
      Record identity v identity.name
  | docker {config : Json} {labels : List (String × Json)} {id : String} :
      identity.runtime = .docker → IsField ["Id", "Name", "Config"] 0 v (.string id) →
      id.toList.length = 64 → (∀ c ∈ id.toList, isHexDigit c = true) →
      IsField ["Id", "Name", "Config"] 1 v (.string ("/" ++ identity.name)) →
      IsField ["Id", "Name", "Config"] 2 v config → IsField ["Labels"] 0 config (.object labels) →
      OwnedBy identity labels → Record identity v id

/-- The first element that meets a condition, where at most one does. -/
theorem filter_eq_singleton {α : Type} {p : α → Bool} {l : List α} {x : α} (hfind : l.find? p = some x)
    (hlen : (l.filter p).length ≤ 1) : l.filter p = [x] := by
  rw [← List.head?_filter] at hfind
  cases hf : l.filter p with
  | nil =>
    rw [hf] at hfind
    cases hfind
  | cons y ys =>
    rw [hf] at hfind hlen
    obtain rfl := Option.some.inj hfind
    rw [List.length_cons] at hlen
    rw [List.length_eq_zero_iff.1 (by omega : ys.length = 0)]

theorem find?_of_entry {key : String} {entries : List (String × Json)} {w : Json}
    (h : Json.entry key entries = some w) : (entries.find? fun e => e.1 == key) = some (key, w) := by
  unfold Json.entry at h
  obtain ⟨⟨key', w'⟩, hfind, rfl⟩ := Option.map_eq_some_iff.1 h
  have hkey := List.find?_some hfind
  obtain rfl : key' = key := by simpa using hkey
  exact hfind

variable {identity : OwnedContainerIdentity} {v : Json} {serde : Serde} {bytes : List UInt8} {keys : List String}
  {i : Nat}

theorem IsField.of_structFields {v w : Json} {fields : List (Option Json)}
    (h : Json.structFields keys v = some fields) (hi : fields[i]? = some (some w)) : IsField keys i v w := by
  unfold Json.structFields at h
  split at h
  · next entries =>
    split at h
    · next hone =>
      obtain rfl := Option.some.inj h
      rw [List.getElem?_map] at hi
      obtain ⟨key, hkey, hw⟩ := Option.map_eq_some_iff.1 hi
      have hlen := List.all_eq_true.1 hone key (List.mem_of_getElem? hkey)
      exact Or.inl ⟨entries, key, rfl, hkey, filter_eq_singleton (find?_of_entry hw) (of_decide_eq_true hlen)⟩
    · cases h
  · next values =>
    split at h
    · next hlen =>
      obtain rfl := Option.some.inj h
      rw [List.getElem?_map] at hi
      obtain ⟨w', hw', he⟩ := Option.map_eq_some_iff.1 hi
      obtain rfl := Option.some.inj he
      exact Or.inr ⟨values, rfl, hlen, hw'⟩
    · cases h
  · cases h

theorem IsField.unique {v w w' : Json} (h : IsField keys i v w) (h' : IsField keys i v w') : w = w' := by
  rcases h with ⟨entries, key, rfl, hkey, hf⟩ | ⟨values, rfl, -, hi⟩
  · rcases h' with ⟨entries', key', he, hkey', hf'⟩ | ⟨values, he, -⟩
    · cases he
      obtain rfl := Option.some.inj (hkey.symm.trans hkey')
      rw [hf] at hf'
      exact congrArg Prod.snd (List.cons.inj hf').1
    · cases he
  · rcases h' with ⟨entries', key', he, -⟩ | ⟨values', he, -, hi'⟩
    · cases he
    · cases he
      exact Option.some.inj (hi.symm.trans hi')

/-- A field that `Json.structFields` does not find is not there. -/
theorem not_isField {v w : Json} {fields : List (Option Json)}
    (h : Json.structFields keys v = some fields) (hi : fields[i]? = some none) : ¬ IsField keys i v w := by
  rintro (⟨entries, key, rfl, hkey, hf⟩ | ⟨values, rfl, -, hw⟩)
  · simp only [Json.structFields] at h
    split at h
    · obtain rfl := Option.some.inj h
      rw [List.getElem?_map, hkey, Option.map_some, Option.some.injEq] at hi
      unfold Json.entry at hi
      rw [← List.head?_filter, hf] at hi
      cases hi
    · cases h
  · simp only [Json.structFields] at h
    split at h
    · obtain rfl := Option.some.inj h
      rw [List.getElem?_map, hw] at hi
      cases hi
    · cases h

theorem eq_map_of_stringEntries {entries : List (String × Json)} :
    ∀ {strings}, stringEntries entries = some strings →
      entries = strings.map fun e : String × String => (e.1, Json.string e.2) := by
  induction entries with
  | nil =>
    intro strings h
    obtain rfl := Option.some.inj h
    rfl
  | cons e entries ih =>
    intro strings h
    unfold stringEntries at h
    split at h
    · next he => cases he
    · next key value entries' he =>
      cases he
      obtain ⟨strings', hs, rfl⟩ := Option.map_eq_some_iff.1 h
      rw [ih hs]
      rfl
    · cases h

/-- Labels whose owner is the attempt hold the owner label once, with its token. -/
theorem ownedBy_of_get {labels : Labels}
    (h : Labels.deserialize v = some labels) (hget : labels.get OWNER_LABEL = some identity.ownerToken) :
    ∃ entries, v = .object entries ∧ OwnedBy identity entries := by
  unfold Labels.deserialize at h
  split at h
  · next entries =>
    split at h
    · next strings hs =>
      split at h
      · next hnodup =>
        obtain rfl := Option.some.inj h
        refine ⟨entries, rfl, ?_⟩
        unfold OwnedBy
        rw [eq_map_of_stringEntries hs, List.filter_map]
        have hfilter : (strings.filter fun e => e.1 == OWNER_LABEL) = [(OWNER_LABEL, identity.ownerToken)] := by
          apply filter_eq_singleton
          · unfold Labels.get at hget
            obtain ⟨⟨key, token⟩, hfind, rfl⟩ := Option.map_eq_some_iff.1 hget
            have hkey := List.find?_some hfind
            obtain rfl : key = OWNER_LABEL := by simpa using hkey
            exact hfind
          · rw [← List.countP_eq_length_filter]
            have hcount := List.nodup_iff_count_le_one.1 hnodup OWNER_LABEL
            rwa [List.count, List.countP_map] at hcount
        exact congrArg (List.map _) hfilter
      · cases h
    · cases h
  · cases h

theorem AppleConfiguration.isField {configuration : AppleConfiguration}
    (h : AppleConfiguration.deserialize v = some configuration)
    (howner : configuration.labels.get OWNER_LABEL = some identity.ownerToken) :
    IsField ["id", "labels"] 0 v (.string configuration.id) ∧
      ∃ labels, IsField ["id", "labels"] 1 v (.object labels) ∧ OwnedBy identity labels := by
  unfold AppleConfiguration.deserialize at h
  split at h
  · next id labels hfields =>
    obtain ⟨l, hl, rfl⟩ := Option.map_eq_some_iff.1 h
    obtain ⟨entries, rfl, howned⟩ := ownedBy_of_get hl howner
    exact ⟨.of_structFields hfields rfl, entries, .of_structFields hfields rfl, howned⟩
  · cases h

theorem AppleInspect.record {r : AppleInspect}
    (hruntime : identity.runtime = .apple) (h : AppleInspect.deserialize v = some r)
    (hid : r.configuration.id = identity.name) (htop : r.id.any (· ≠ identity.name) = false)
    (howner : r.configuration.labels.get OWNER_LABEL = some identity.ownerToken) :
    Record identity v r.configuration.id := by
  unfold AppleInspect.deserialize at h
  split at h
  · next configuration hfields =>
    obtain ⟨c, hc, rfl⟩ := Option.map_eq_some_iff.1 h
    obtain ⟨hname, labels, hlabels, howned⟩ := AppleConfiguration.isField hc howner
    rw [hid] at hname ⊢
    refine .apple hruntime (.of_structFields hfields rfl) (fun id hf => ?_) hname hlabels howned
    exact absurd hf (not_isField hfields rfl)
  · next id configuration hfields =>
    obtain ⟨c, hc, rfl⟩ := Option.map_eq_some_iff.1 h
    obtain ⟨hname, labels, hlabels, howned⟩ := AppleConfiguration.isField hc howner
    rw [hid] at hname ⊢
    refine .apple hruntime (.of_structFields hfields rfl) (fun id' hf => ?_) hname hlabels howned
    have htop : id = identity.name := by simpa using htop
    rw [← htop]
    exact hf.unique (.of_structFields hfields rfl)
  · cases h

theorem DockerInspect.record {r : DockerInspect}
    (hruntime : identity.runtime = .docker) (h : DockerInspect.deserialize v = some r)
    (hname : r.name = "/" ++ identity.name) (hlen : r.id.toList.length = 64)
    (hhex : r.id.toList.all isHexDigit = true)
    (howner : r.labels.get OWNER_LABEL = some identity.ownerToken) : Record identity v r.id := by
  unfold DockerInspect.deserialize at h
  split at h
  · next id name config hfields =>
    obtain ⟨labels, hl, rfl⟩ := Option.map_eq_some_iff.1 h
    unfold DockerConfiguration.deserialize at hl
    split at hl
    · next value hconfig =>
      obtain ⟨entries, rfl, howned⟩ := ownedBy_of_get hl howner
      obtain rfl : name = "/" ++ identity.name := hname
      exact .docker hruntime (.of_structFields hfields rfl) hlen (List.all_eq_true.1 hhex)
        (.of_structFields hfields rfl) (.of_structFields hfields rfl) (.of_structFields hconfig rfl) howned
    · cases hl
  · cases h

theorem of_records {R : Type} {deserialize : Json → Option R} {r : R} (h : records serde deserialize bytes = some [r]) :
    ∃ v, serde.fromSlice bytes = some (.array [v]) ∧ deserialize v = some r := by
  unfold records at h
  split at h
  · next values hvalues =>
    cases values with
    | nil => cases h
    | cons v values =>
      rw [List.mapM_cons] at h
      obtain ⟨r', hr', h⟩ := Option.bind_eq_some_iff.1 h
      obtain ⟨rs, hrs, h⟩ := Option.bind_eq_some_iff.1 h
      cases h
      cases values with
      | nil => exact ⟨v, hvalues, hr'⟩
      | cons w values =>
        rw [List.mapM_cons] at hrs
        obtain ⟨_, -, hrs⟩ := Option.bind_eq_some_iff.1 hrs
        obtain ⟨_, -, hrs⟩ := Option.bind_eq_some_iff.1 hrs
        cases hrs
  · cases h

theorem of_checkOwner {target target' : String} {labels : Labels}
    (h : checkOwner identity target labels = .ok target') :
    labels.get OWNER_LABEL = some identity.ownerToken ∧ target' = target := by
  unfold checkOwner at h
  split at h
  · cases h
  · next howner =>
    cases h
    exact ⟨not_not.1 howner, rfl⟩

/-- What is deleted after an inspection is the identity of the only record of it, which is the attempt's own. -/
theorem deletionTarget_ok {target : String} (h : deletionTarget serde identity bytes = .ok target) :
    ∃ v, serde.fromSlice bytes = some (.array [v]) ∧ Record identity v target := by
  unfold deletionTarget at h
  split at h
  · cases h
  · split at h
    · next hruntime =>
      split at h
      · cases h
      · next r hr =>
        split at h
        · cases h
        · next hid =>
          obtain ⟨v, hv, hdes⟩ := of_records hr
          obtain ⟨howner, rfl⟩ := of_checkOwner h
          rw [Bool.or_eq_true, not_or, decide_eq_true_eq, not_not, Bool.not_eq_true] at hid
          exact ⟨v, hv, AppleInspect.record hruntime hdes hid.1 hid.2 howner⟩
      · cases h
    · next hruntime =>
      split at h
      · cases h
      · next r hr =>
        split at h
        · cases h
        · next hid =>
          obtain ⟨v, hv, hdes⟩ := of_records hr
          obtain ⟨howner, rfl⟩ := of_checkOwner h
          simp only [Bool.or_eq_true, not_or, decide_eq_true_eq, not_not, Bool.not_eq_true'] at hid
          exact ⟨v, hv, DockerInspect.record hruntime hdes hid.1.1 hid.1.2 (by simpa using hid.2) howner⟩
      · cases h
    · cases h

/-! ## Runs -/

/-- The result of a cleanup, and its commands with the runtime's answers. -/
abbrev Run := Except String Unit × List (RuntimeCommand × Answer)

/-- A run of the cleanup with a runtime that gives its `n`-th answer as `answers n`. -/
def exec (serde : Serde) (identity : OwnedContainerIdentity) (answers : Nat → RuntimeCommand → Answer) : Run :=
  (cleanupOwnedInstance serde identity).run (fun n c => (answers n c, answers n c)) 0

/-- The word of a command that says what it does. -/
def RuntimeCommand.verb (c : RuntimeCommand) : String :=
  match c.args with
  | "--host" :: _ :: verb :: _ => verb
  | verb :: _ => verb
  | [] => ""

def RuntimeCommand.isDelete (c : RuntimeCommand) : Bool := c.verb = "delete" || c.verb = "rm"

theorem commands_cases {inspect : RuntimeCommand}
    {delete : String → RuntimeCommand} (h : commands identity = .ok (some (inspect, delete))) :
    inspect.isDelete = false ∧ (∀ target, (delete target).isDelete = true) ∧
      (∀ target, (delete target).args.getLast? = some target) ∧
      ∀ c, (c = inspect ∨ ∃ target, c = delete target) →
        c.program = identity.runtimeBinary ∧ ("PATH", some identity.childPath) ∈ c.env ∧
          ∀ e, identity.runtime = .docker → identity.dockerEndpoint = some e →
            c.args.take 2 = ["--host", e.host] ∧ ∀ v ∈ pinEnvironment, v ∈ c.env := by
  unfold commands at h
  split at h
  · cases h
  · next hruntime =>
    cases h
    refine ⟨rfl, fun _ => rfl, fun _ => rfl, ?_⟩
    rintro c hc
    have henv : c.program = identity.runtimeBinary ∧ ("PATH", some identity.childPath) ∈ c.env := by
      rcases hc with rfl | ⟨target, rfl⟩
      · exact ⟨rfl, List.mem_cons_self⟩
      · exact ⟨rfl, List.mem_cons_self⟩
    refine ⟨henv.1, henv.2, fun e hd => ?_⟩
    rw [hruntime] at hd
    cases hd
  · split at h
    · cases h
    · next endpoint hendpoint =>
      cases h
      refine ⟨rfl, fun _ => rfl, fun _ => rfl, ?_⟩
      rintro c hc
      have henv : c.program = identity.runtimeBinary ∧ ("PATH", some identity.childPath) ∈ c.env ∧
          c.args.take 2 = ["--host", endpoint.host] ∧ ∀ v ∈ pinEnvironment, v ∈ c.env := by
        rcases hc with rfl | ⟨target, rfl⟩
        · exact ⟨rfl, List.mem_cons_self, rfl, fun v hv => List.mem_cons_of_mem _ hv⟩
        · exact ⟨rfl, List.mem_cons_self, rfl, fun v hv => List.mem_cons_of_mem _ hv⟩
      refine ⟨henv.1, henv.2.1, fun e _ he => ?_⟩
      obtain rfl := Option.some.inj (hendpoint.symm.trans he)
      exact henv.2.2

/-- Every way a cleanup can end. -/
inductive Ended (serde : Serde) (identity : OwnedContainerIdentity) : Run → Prop
  /-- The runtime needs no deletion. -/
  | unneeded : commands identity = .ok none → Ended serde identity (.ok (), [])
  | refused {error : String} : Ended serde identity (.error error, [])
  /-- The inspection failed, or what it says is refused. -/
  | inspected {inspect : RuntimeCommand} {delete : String → RuntimeCommand} {answer : Answer} {error : String} :
      commands identity = .ok (some (inspect, delete)) → Ended serde identity (.error error, [(inspect, answer)])
  | missing {inspect : RuntimeCommand} {delete : String → RuntimeCommand} {output : Output} :
      commands identity = .ok (some (inspect, delete)) → output.success = false →
      confirmedMissing identity output.stderr = true → Ended serde identity (.ok (), [(inspect, .ok output)])
  | deleted {inspect : RuntimeCommand} {delete : String → RuntimeCommand} {output : Output} {target : String}
      {answer : Answer} :
      commands identity = .ok (some (inspect, delete)) → output.success = true →
      deletionTarget serde identity output.stdout = .ok target →
      Ended serde identity (afterDelete answer, [(inspect, .ok output), (delete target, answer)])

theorem exec_ended (serde : Serde) (identity : OwnedContainerIdentity) (answers : Nat → RuntimeCommand → Answer) :
    Ended serde identity (exec serde identity answers) := by
  unfold exec cleanupOwnedInstance
  split
  · exact .refused
  · next h => exact .unneeded h
  · next inspect delete h =>
    simp only [Dialogue.run]
    cases ha : answers 0 inspect with
    | error error => exact .inspected h
    | ok output =>
      cases hs : output.success with
      | false =>
        simp only [hs, Bool.not_false, if_true]
        cases hm : confirmedMissing identity output.stderr with
        | false => exact .inspected h
        | true => exact .missing h hs hm
      | true =>
        simp only [hs, Bool.not_true, Bool.false_eq_true, if_false]
        cases ht : deletionTarget serde identity output.stdout with
        | error error => exact .inspected h
        | ok target => exact .deleted h hs ht

/-! ## What this means -/

/-- A confirmed absence: there is a diagnostic, and each line of it says that the instance does not exist. -/
theorem confirmedMissing_lines {stderr : List UInt8} (h : confirmedMissing identity stderr = true) :
    diagnosticLines stderr ≠ [] ∧ ∀ line ∈ diagnosticLines stderr, saysMissing identity line = true := by
  unfold confirmedMissing at h
  simp only [Bool.and_eq_true, Bool.not_eq_true', List.isEmpty_eq_false_iff] at h
  exact ⟨h.1.2, List.all_eq_true.1 h.2⟩

structure Guarantees (serde : Serde) (identity : OwnedContainerIdentity) (r : Run) : Prop where
  /-- A deletion is the second command, after an inspection of the instance that succeeded with exactly one record, the
  attempt's own; what is deleted is the identity of that record. -/
  deletes : ∀ n c a, r.2[n]? = some (c, a) → c.isDelete = true → n = 1 ∧
    ∃ inspect delete output v target, commands identity = .ok (some (inspect, delete)) ∧
      r.2[0]? = some (inspect, .ok output) ∧ output.success = true ∧ output.stdout.length ≤ MAX_INSPECT_BYTES ∧
      serde.fromSlice output.stdout = some (.array [v]) ∧ Record identity v target ∧
      c = delete target ∧ c.args.getLast? = some target
  /-- Success without a deletion: the runtime needs none, or the inspection failed and each line it printed says that
  the instance does not exist. -/
  success : r.1 = .ok () → (∀ x ∈ r.2, x.1.isDelete = false) → identity.runtime = .orbStack ∨
    ∃ inspect delete output, commands identity = .ok (some (inspect, delete)) ∧
      r.2 = [(inspect, .ok output)] ∧ output.success = false ∧
      diagnosticLines output.stderr ≠ [] ∧ ∀ line ∈ diagnosticLines output.stderr, saysMissing identity line = true
  /-- Success with a deletion: the runtime reported it. -/
  deleted : r.1 = .ok () → ∀ c a, (c, a) ∈ r.2 → c.isDelete = true → ∃ output, a = .ok output ∧ output.success = true
  /-- Every command runs the captured executable with the captured path and endpoint. -/
  captured : ∀ x ∈ r.2, x.1.program = identity.runtimeBinary ∧ ("PATH", some identity.childPath) ∈ x.1.env ∧
    ∀ e, identity.runtime = .docker → identity.dockerEndpoint = some e →
      x.1.args.take 2 = ["--host", e.host] ∧ ∀ v ∈ pinEnvironment, v ∈ x.1.env

theorem afterDelete_ok {answer : Answer} (h : afterDelete answer = .ok ()) :
    ∃ output, answer = .ok output ∧ output.success = true := by
  unfold afterDelete at h
  split at h
  · cases h
  · next output =>
    split at h
    · next hs => exact ⟨output, rfl, hs⟩
    · cases h

theorem deletionTarget_length {target : String}
    (h : deletionTarget serde identity bytes = .ok target) : bytes.length ≤ MAX_INSPECT_BYTES := by
  unfold deletionTarget at h
  split at h
  · cases h
  · next hle => exact Nat.le_of_not_lt hle

/-- Whatever the runtime answers, in whatever form. -/
theorem cleanup_guarantees (serde : Serde) (identity : OwnedContainerIdentity)
    (answers : Nat → RuntimeCommand → Answer) : Guarantees serde identity (exec serde identity answers) := by
  have hended := exec_ended serde identity answers
  generalize exec serde identity answers = r at hended
  cases hended with
  | unneeded h =>
    refine ⟨nofun, fun _ _ => Or.inl ?_, nofun, nofun⟩
    unfold commands at h
    split at h
    · assumption
    · cases h
    · split at h
      · cases h
      · cases h
  | refused => exact ⟨nofun, nofun, nofun, nofun⟩
  | @inspected inspect delete answer error h =>
    obtain ⟨hinspect, -, -, hall⟩ := commands_cases h
    refine ⟨fun n c a hn hc => ?_, nofun, nofun, fun x hx => ?_⟩
    · obtain ⟨rfl, rfl⟩ := Prod.mk.inj (List.mem_singleton.1 (List.mem_of_getElem? hn))
      rw [hinspect] at hc
      cases hc
    · obtain rfl := List.mem_singleton.1 hx
      exact hall _ (Or.inl rfl)
  | @missing inspect delete output h hs hm =>
    obtain ⟨hinspect, -, -, hall⟩ := commands_cases h
    obtain ⟨hne, hlines⟩ := confirmedMissing_lines hm
    refine ⟨fun n c a hn hc => ?_, fun _ _ => Or.inr ⟨inspect, delete, output, h, rfl, hs, hne, hlines⟩,
      fun _ c a hm hc => ?_, fun x hx => ?_⟩
    · obtain ⟨rfl, rfl⟩ := Prod.mk.inj (List.mem_singleton.1 (List.mem_of_getElem? hn))
      rw [hinspect] at hc
      cases hc
    · obtain ⟨rfl, rfl⟩ := Prod.mk.inj (List.mem_singleton.1 hm)
      rw [hinspect] at hc
      cases hc
    · obtain rfl := List.mem_singleton.1 hx
      exact hall _ (Or.inl rfl)
  | @deleted inspect delete output target answer h hs ht =>
    obtain ⟨hinspect, hdelete, htarget, hall⟩ := commands_cases h
    obtain ⟨v, hv, hrecord⟩ := deletionTarget_ok ht
    refine ⟨fun n c a hn hc => ?_, fun _ hno => ?_, fun hok c a hm hc => ?_, fun x hx => ?_⟩
    · match n, hn with
      | 0, hn =>
        obtain ⟨rfl, rfl⟩ := Prod.mk.inj (Option.some.inj hn)
        rw [hinspect] at hc
        cases hc
      | 1, hn =>
        obtain ⟨rfl, rfl⟩ := Prod.mk.inj (Option.some.inj hn)
        exact ⟨rfl, inspect, delete, output, v, target, h, rfl, hs, deletionTarget_length ht, hv, hrecord, rfl,
          htarget target⟩
      | n + 2, hn => cases hn
    · have hd := hno (delete target, answer) (by simp)
      rw [hdelete] at hd
      cases hd
    · rcases List.mem_cons.1 hm with he | he
      · obtain ⟨rfl, rfl⟩ := Prod.mk.inj he
        rw [hinspect] at hc
        cases hc
      · obtain ⟨rfl, rfl⟩ := Prod.mk.inj (List.mem_singleton.1 he)
        exact afterDelete_ok hok
    · rcases List.mem_cons.1 hx with rfl | hx
      · exact hall _ (Or.inl rfl)
      · obtain rfl := List.mem_singleton.1 hx
        exact hall _ (Or.inr ⟨target, rfl⟩)

/-- The record that `run --label` leads to is deleted. -/
theorem owned_deleted (hruntime : identity.runtime = .apple) {answers : Nat → RuntimeCommand → Answer} {output : Output}
    (ha : answers 0 (appleCommand identity ["inspect", identity.name]) = .ok output) (hs : output.success = true)
    (hlen : output.stdout.length ≤ MAX_INSPECT_BYTES)
    (hv : serde.fromSlice output.stdout = some (.array [.object [("configuration", .object [
      ("id", .string identity.name), ("labels", .object [(OWNER_LABEL, .string identity.ownerToken)])])]])) :
    ∃ answer, exec serde identity answers = (afterDelete answer,
      [(appleCommand identity ["inspect", identity.name], .ok output),
        (appleCommand identity ["delete", "--force", identity.name], answer)]) := by
  have htarget : deletionTarget serde identity output.stdout = .ok identity.name := by
    unfold deletionTarget
    rw [if_neg (by omega), hruntime]
    simp [records, hv, AppleInspect.deserialize, AppleConfiguration.deserialize, Json.structFields, Json.entry,
      Labels.deserialize, stringEntries, checkOwner, Labels.get]
  have hcommands : commands identity = .ok (some (appleCommand identity ["inspect", identity.name],
      fun target => appleCommand identity ["delete", "--force", target])) := by
    unfold commands
    rw [hruntime]
  refine ⟨answers 1 (appleCommand identity ["delete", "--force", identity.name]), ?_⟩
  unfold exec cleanupOwnedInstance
  rw [hcommands]
  simp [Dialogue.run, ha, hs, htarget]

end CocoaWay.OwnedCleanup
