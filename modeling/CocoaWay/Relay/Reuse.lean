import CocoaWay.Relay.Streams

/-!
# The ids of the guest, and the end of the loop

* `Balance` : the OPENs of an id that were decoded are the CLOSEs queued for it, the stream that is open, the streams
  the guest closed and the rejected OPEN that waits;
* `Ended` : what holds when the loop has returned;
* `reusesClosed` : the guest sends OPEN only for an id whose earlier OPENs the bridge has all answered by CLOSE.
-/

namespace CocoaWay.Relay
open Lib

variable {s s' : State} {limits : Limits} {id : UInt32} {peer peer' : Peer}

/-! ## Balance -/

def Item.opens (id : UInt32) (item : Item) : Bool := item == .opened id || item == .rejected id

/-- The OPENs of the id that were decoded. -/
def openedCount (id : UInt32) (items : List Item) : Nat := items.countP (Item.opens id)

/-- The CLOSEs queued for the id. -/
def closedCount (id : UInt32) (sent : List (Nat × Frame)) : Nat := sent.countP fun f => f.2 == .close id

/-- The streams of the id the guest closed. -/
def guestClosedCount (id : UInt32) (retired : List (UInt32 × Peer)) : Nat :=
  retired.countP fun e => e.1 == id && e.2.guestClosed

def openCount (id : UInt32) (peers : Table UInt32 Peer) : Nat := if (peers.get id).isSome then 1 else 0

/-- The rejected OPEN that waits for its CLOSE. -/
def waitingCount (id : UInt32) (input : Input) : Nat :=
  if input.rejectedOpen = true ∧ headerId input.header = id then 1 else 0

def Balance (s : State) : Prop :=
  ∀ id, openedCount id s.items =
    closedCount id s.sent + guestClosedCount id s.retired + openCount id s.peers + waitingCount id s.input

theorem openedCount_append (id : UInt32) (items : List Item) (item : Item) :
    openedCount id (items ++ [item]) = openedCount id items + if item.opens id then 1 else 0 := by
  unfold openedCount
  rw [List.countP_append, List.countP_singleton]

theorem openedCount_bytes (id i : UInt32) (items : List Item) (bytes : Bytes) :
    openedCount id (items ++ bytes.map (Item.byte i)) = openedCount id items := by
  unfold openedCount
  rw [List.countP_append, List.countP_map]
  have : bytes.countP (Item.opens id ∘ Item.byte i) = 0 := by
    rw [List.countP_eq_zero]
    intro b _
    exact Bool.not_eq_true _ ▸ rfl
  omega

theorem closedCount_append (id : UInt32) (sent : List (Nat × Frame)) (f : Nat × Frame) :
    closedCount id (sent ++ [f]) = closedCount id sent + if f.2 == .close id then 1 else 0 := by
  unfold closedCount
  rw [List.countP_append, List.countP_singleton]

theorem guestClosedCount_append (id : UInt32) (retired : List (UInt32 × Peer)) (e : UInt32 × Peer) :
    guestClosedCount id (retired ++ [e]) =
      guestClosedCount id retired + if e.1 == id && e.2.guestClosed then 1 else 0 := by
  unfold guestClosedCount
  rw [List.countP_append, List.countP_singleton]

theorem openCount_set (h : s.peers.get id = some peer) (peer' : Peer) (i : UInt32) :
    openCount i (s.peers.set id peer') = openCount i s.peers := by
  unfold openCount
  rw [Table.get_set]
  split
  next hi => rw [hi, h, Option.isSome_some, Option.isSome_some]
  · rfl

theorem openCount_set_of_none (h : s.peers.get id = none) (peer' : Peer) (i : UInt32) :
    openCount i (s.peers.set id peer') = openCount i s.peers + if i = id then 1 else 0 := by
  unfold openCount
  rw [Table.get_set]
  split
  next hi =>
    rw [hi, h]
    rfl
  · rfl

theorem openCount_remove (h : s.peers.get id = some peer) (i : UInt32) :
    openCount i s.peers = openCount i (s.peers.remove id) + if i = id then 1 else 0 := by
  unfold openCount
  rw [Table.get_remove]
  by_cases hi : i = id
  · rw [if_pos hi, if_pos hi, hi, h]
    rfl
  · rw [if_neg hi, if_neg hi]
    rfl

theorem balance_new (limits : Limits) : Balance (.new limits) := fun _ => rfl

theorem Balance.setPeer (hb : Balance s) (h : s.peers.get id = some peer) : Balance (s.setPeer id peer') := by
  intro i
  have := hb i
  show openedCount i s.items = closedCount i s.sent + guestClosedCount i s.retired +
    openCount i (s.peers.set id peer') + waitingCount i s.input
  rw [openCount_set h]
  exact this

theorem Balance.of_eq (hb : Balance s) (hitems : ∀ i, openedCount i s'.items = openedCount i s.items)
    (hsent : ∀ i, closedCount i s'.sent = closedCount i s.sent) (hretired : s'.retired = s.retired)
    (hpeers : ∀ i, openCount i s'.peers = openCount i s.peers)
    (hinput : ∀ i, waitingCount i s'.input = waitingCount i s.input) : Balance s' := by
  intro i
  rw [hitems, hsent, hretired, hpeers, hinput]
  exact hb i

theorem Balance.move (hb : Balance s) (h : Move limits s s') : Balance s' := by
  rcases h with ⟨h, hr⟩ | ⟨h, hr⟩
  · cases h with
    | connection id peer h connecting retrying => exact hb.setPeer h
    | deliver id peer n input bytes h hwrite => exact hb.setPeer h
    | hostEof id peer h => exact hb.setPeer h
    | take id peer bytes output h hpush =>
      have hq : Balance (s.queued peer.serial (.data id bytes) output) := by
        refine hb.of_eq (fun _ => rfl) (fun i => ?_) rfl (fun _ => rfl) fun _ => rfl
        exact closedCount_append i s.sent _
      exact hq.setPeer h
    | retire id peer h hempty hclosed =>
      intro i
      have hbi := hb i
      rw [openCount_remove h i] at hbi
      show openedCount i (s.items ++ [.retired id]) = closedCount i s.sent +
        guestClosedCount i (s.retired ++ [(id, peer)]) + openCount i (s.peers.remove id) + waitingCount i s.input
      rw [openedCount_append, guestClosedCount_append]
      have hitem : (Item.retired id).opens i = false := rfl
      rw [hitem]
      by_cases hi : i = id
      · subst hi
        simp only [hclosed, if_pos] at hbi ⊢
        simp
        omega
      · have : (id == i) = false := by simpa using fun he => hi he.symm
        simp only [this, if_neg hi, Bool.false_and] at hbi ⊢
        simpa using hbi
    | close id peer output h hempty hopen heof hpush =>
      intro i
      have hbi := hb i
      rw [openCount_remove h i] at hbi
      show openedCount i (s.items ++ [.retired id]) = closedCount i (s.sent ++ [(peer.serial, .close id)]) +
        guestClosedCount i (s.retired ++ [(id, peer)]) + openCount i (s.peers.remove id) + waitingCount i s.input
      rw [openedCount_append, guestClosedCount_append, closedCount_append]
      have hitem : (Item.retired id).opens i = false := rfl
      rw [hitem]
      by_cases hi : i = id
      · subst hi
        simp only [hopen, if_pos] at hbi ⊢
        simp
        omega
      · have : (Frame.close id == Frame.close i) = false := by simpa using fun he => hi he.symm
        simp only [this, hopen, if_neg hi, Bool.and_false] at hbi ⊢
        simpa using hbi
    | _ => exact hb.of_eq (fun _ => rfl) (fun _ => rfl) rfl (fun _ => rfl) fun _ => rfl
  · cases h with
    | scan input wire todo eof hrejected hheader heof =>
      refine hb.of_eq (fun _ => rfl) (fun _ => rfl) rfl (fun _ => rfl) fun i => ?_
      unfold waitingCount
      dsimp only
      rw [hrejected]
      by_cases hrej : s.input.rejectedOpen = true
      · rw [hheader hrej]
      · rw [if_neg (fun h => hrej h.1), if_neg (fun h => hrej h.1)]
    | dataHeader id length =>
      exact hb.of_eq (fun i => openedCount_append i s.items _) (fun _ => rfl) rfl (fun _ => rfl) fun _ => rfl
    | drop id bytes h =>
      exact hb.of_eq (fun i => openedCount_bytes i id s.items bytes) (fun _ => rfl) rfl (fun _ => rfl) fun _ => rfl
    | closedUnknown id h =>
      exact hb.of_eq (fun i => openedCount_append i s.items _) (fun _ => rfl) rfl (fun _ => rfl) fun _ => rfl
    | closed id peer h =>
      exact hb.of_eq (fun i => openedCount_append i s.items _) (fun _ => rfl) rfl (fun i => openCount_set h _ i)
        fun _ => rfl
    | accept id peer bytes input h hopen hpush =>
      exact hb.of_eq (fun i => openedCount_bytes i id s.items bytes) (fun _ => rfl) rfl (fun i => openCount_set h _ i)
        fun _ => rfl
    | opened id connecting retrying h hrej =>
      intro i
      have hbi := hb i
      dsimp only
      rw [openedCount_append, openCount_set_of_none h]
      have hitem : (Item.opened id).opens i = decide (i = id) := by
        unfold Item.opens
        by_cases hi : i = id
        · simp [hi]
        · simpa [hi] using fun he => hi he.symm
      rw [hitem]
      simp only [decide_eq_true_eq]
      omega
    | rejected h hlive =>
      intro i
      have hbi := hb i
      show openedCount i (s.items ++ [.rejected (headerId s.input.header)]) = closedCount i s.sent +
        guestClosedCount i s.retired + openCount i s.peers + waitingCount i { s.input with rejectedOpen := true }
      rw [openedCount_append]
      have hitem : (Item.rejected (headerId s.input.header)).opens i = decide (headerId s.input.header = i) := by
        unfold Item.opens
        by_cases hi : headerId s.input.header = i <;> simp [hi]
      have hold : waitingCount i s.input = 0 := if_neg fun hp => by
        rw [h] at hp
        cases hp.1
      have hnew : waitingCount i { s.input with rejectedOpen := true } = if headerId s.input.header =
        i then 1 else 0 := by
        unfold waitingCount
        simp
      rw [hitem, hnew]
      simp only [decide_eq_true_eq]
      omega
    | answer output h hpush =>
      intro i
      have hbi := hb i
      show openedCount i s.items =
        closedCount i (s.sent ++ [(s.opens - 1, .close (headerId s.input.header))]) + guestClosedCount i s.retired +
          openCount i s.peers + 0
      have hold : waitingCount i s.input = if headerId s.input.header = i then 1 else 0 := by
        unfold waitingCount
        simp [h]
      rw [closedCount_append]
      rw [hold] at hbi
      have hframe : (Frame.close (headerId s.input.header) == Frame.close i) =
        decide (headerId s.input.header = i) := by
        by_cases hi : headerId s.input.header = i <;> simp [hi]
      rw [hframe]
      simp only [decide_eq_true_eq]
      omega
    | _ => exact hb.of_eq (fun _ => rfl) (fun _ => rfl) rfl (fun _ => rfl) fun _ => rfl

/-! ## The end of the loop -/

structure Ended (s : State) : Prop where
  ok : s.result = some (.ok ()) → s.transportEof = true ∧ s.drained = true ∧ s.Retired
  sound : s.result ≠ some (.error .panicked)
  duplicate : s.result = some (.error .duplicateStream) → (s.peers.get (headerId s.input.header)).isSome = true

theorem ended_of_running (h : s.result = none) : Ended s := by
  refine ⟨fun hr => ?_, fun hr => ?_, fun hr => ?_⟩
  all_goals
    rw [h] at hr
    cases hr

theorem ended_fail {e : BridgeError} (h : e ≠ .panicked ∧ e ≠ .duplicateStream) : Ended (s.fail e) := by
  refine ⟨nofun, fun hr => ?_, fun hr => ?_⟩
  · exact h.1 (Except.error.inj (Option.some.inj hr))
  · exact absurd (Except.error.inj (Option.some.inj hr)) h.2

theorem ended_new (limits : Limits) : Ended (.new limits) := by
  by_cases hv : limits.valid = true
  · refine ended_of_running ?_
    unfold State.new
    rw [if_pos hv]
  · have hr : (State.new limits).result = some (.error .invalidLimits) := by
      unfold State.new
      rw [if_neg hv]
    refine ⟨fun h => ?_, fun h => ?_, fun h => ?_⟩
    all_goals
      rw [hr] at h
      cases h

theorem Ended.move (h : Move limits s s') : Ended s' := by
  rcases h with ⟨h, hr⟩ | ⟨h, hr⟩
  · cases h with
    | fail e h => exact ended_fail ⟨h.2.2, h.2.1⟩
    | finish heof hdrained hretired => exact ⟨fun _ => ⟨heof, hdrained, hretired⟩, nofun, nofun⟩
    | _ => exact ended_of_running hr
  · cases h with
    | fail e h => exact ended_fail ⟨h.2, h.1⟩
    | duplicate h => exact ⟨nofun, nofun, fun _ => h⟩
    | _ => exact ended_of_running hr

/-! ## Reuse -/

/-- The OPENs of the id among the frames. -/
def startedCount (id : UInt32) (frames : List Frame) : Nat := frames.countP fun f => f == .start id

/-- An OPEN is sent only for an id whose earlier OPENs have all been answered by CLOSE. -/
def reusesClosed (s : State) : Event → Prop
  | .guest (.start id) => startedCount id s.guest = closedCount id s.sent
  | _ => True

theorem count_tokensOf (id : UInt32) (items : List Item) :
    (tokensOf items).countP (fun t => t == .start id) = openedCount id items := by
  unfold tokensOf openedCount
  induction items with
  | nil => rfl
  | cons item items ih =>
    rw [List.flatMap_cons, List.countP_append, ih, List.countP_cons, Nat.add_comm]
    congr 1
    cases item <;> simp [Item.tokens, Item.opens, List.countP_cons]

theorem count_frameTokens (id : UInt32) (frames : List Frame) :
    (frameTokens frames).countP (fun t => t == .start id) = startedCount id frames := by
  unfold frameTokens startedCount
  induction frames with
  | nil => rfl
  | cons frame frames ih =>
    rw [List.flatMap_cons, List.countP_append, ih, List.countP_cons, Nat.add_comm]
    congr 1
    cases frame <;> simp [Frame.tokens, List.countP_cons, List.countP_map]

theorem Decodes.opened_add_started (hd : Decodes s) (id : UInt32) :
    openedCount id s.items + startedCount id s.todo = startedCount id s.guest := by
  have htokens : (tokensOf s.items).countP (fun t => t == .start id) +
      s.tokensAhead.countP (fun t => t == .start id) = (frameTokens s.guest).countP fun t => t == .start id := by
    cases hd.position with
    | between wire tokens unfinished invalid duplicate => rw [← tokens, List.countP_append]
    | rejected header remaining unanswered wire tokens valid => rw [← tokens, List.countP_append]
    | payload rest header remaining within unrejected wire tokens valid =>
      have hbytes : (rest.map (Token.byte (headerId s.input.header))).countP (fun t => t == .start id) = 0 := by
        simp [List.countP_map]
      rw [← tokens, List.countP_append, List.countP_append, hbytes, Nat.zero_add]
  rw [count_tokensOf, count_frameTokens, State.tokensAhead, count_frameTokens] at htokens
  exact htokens

theorem closedCount_moves (h : Moves limits s s') (id : UInt32) : closedCount id s.sent ≤ closedCount id s'.sent :=
  (sent_moves h).2.sublist.countP_le

/-- A guest that waits for CLOSE has at most one OPEN of an id unanswered. -/
theorem started_le (h : (system limits).ReachableWhere reusesClosed s) (id : UInt32) :
    startedCount id s.guest ≤ closedCount id s.sent + 1 := by
  induction h with
  | init => exact Nat.zero_le _
  | @step s s' e hreach hc hst ih =>
    have hd := decodes_of_reachable hreach.reachable
    obtain ⟨frame, rfl, rfl⟩ | ⟨bytes, -, rfl⟩ | ⟨turn, -, hmoves⟩ := step_cases hd hst
    · have hcount : startedCount id (s.guest ++ [frame]) =
          startedCount id s.guest + if frame == .start id then 1 else 0 := by
        unfold startedCount
        rw [List.countP_append, List.countP_singleton]
      show startedCount id (s.guest ++ [frame]) ≤ closedCount id s.sent + 1
      rw [hcount]
      split
      next hf =>
        obtain rfl : frame = .start id := by simpa using hf
        have : startedCount id s.guest = closedCount id s.sent := hc
        omega
      · exact ih
    · exact ih
    · have := closedCount_moves hmoves id
      rw [(sent_moves hmoves).1]
      omega

/-- Such a guest never makes the bridge fail with a duplicate stream. -/
theorem no_duplicateStream (hd : Decodes s) (hb : Balance s) (he : Ended s)
    (hle : ∀ id, startedCount id s.guest ≤ closedCount id s.sent + 1) :
    s.result ≠ some (.error .duplicateStream) := by
  intro hr
  have hopen := he.duplicate hr
  have hfailed : s.decoderFailed .duplicateStream := ⟨hr, Or.inr rfl⟩
  cases hd.position with
  | payload rest header remaining within unrejected wire tokens valid => exact valid _ hfailed
  | rejected header remaining unanswered wire tokens valid => exact valid _ hfailed
  | between wire tokens unfinished invalid duplicate =>
    obtain ⟨-, rest, htodo⟩ := duplicate hr
    have hstarted := hd.opened_add_started (headerId s.input.header)
    have hbalance := hb (headerId s.input.header)
    have hone : openCount (headerId s.input.header) s.peers = 1 := if_pos hopen
    have hahead : 0 < startedCount (headerId s.input.header) s.todo := by
      rw [htodo]
      unfold startedCount
      rw [List.countP_cons]
      simp
    have := hle (headerId s.input.header)
    omega

end CocoaWay.Relay
