import Mathlib.Logic.Relation
import CocoaWay.Relay.Decoder

/-!
# What a turn of the bridge does, move by move

* `LocalMove` : the moves of the parts that are not the decoder; `LocalMove.sameDecoder`;
* `InputMove` : the moves of `Input::read`;
* `Moves` : moves one after the other, while there is no result; `moves_iterate` : a turn is made of moves;
* `Moves.invariant` : the rule every property of the streams goes through;
* `sent_moves` : moves only add to the frames queued for the guest; `answered_iterate` : a turn answers a rejected OPEN
  as soon as there is room.
-/

namespace CocoaWay.Relay
open Lib

variable {s s' t : State} {limits : Limits} {id : UInt32} {turn : Turn}

/-- `frame` is queued for the guest, for the stream with the number. -/
def State.queued (s : State) (serial : Nat) (frame : Frame) (output : Queue) : State :=
  { s with output := output, sent := s.sent ++ [(serial, frame)] }

/-- The stream leaves the bridge. -/
def State.gone (s : State) (id : UInt32) (peer : Peer) : State :=
  { s with peers := s.peers.remove id, retired := s.retired ++ [(id, peer)], items := s.items ++ [.retired id] }

/-- No stream waits to be retired, but for want of room for a CLOSE. -/
def State.Retired (s : State) : Prop := (∀ id, s.retirable id = false) ∨ s.output.room < headerSize

/-- The moves of the loop outside the decoder. -/
inductive LocalMove (s : State) : State → Prop
  | fail (e : BridgeError) (h : e ≠ .invalidHeader ∧ e ≠ .duplicateStream ∧ e ≠ .panicked) : LocalMove s (s.fail e)
  | finish (heof : s.transportEof = true) (hdrained : s.drained = true) (hretired : s.Retired) :
      LocalMove s { s with result := some (.ok ()) }
  | rotate (n : Nat) : LocalMove s { s with rotation := n }
  | connection (id : UInt32) (peer : Peer) (h : s.peers.get id = some peer) (connecting retrying : Bool) :
      LocalMove s (s.setPeer id { peer with connecting := connecting, retrying := retrying })
  | retire (id : UInt32) (peer : Peer) (h : s.peers.get id = some peer) (hempty : peer.input.isEmpty = true)
      (hclosed : peer.guestClosed = true) : LocalMove s (s.gone id peer)
  | close (id : UInt32) (peer : Peer) (output : Queue) (h : s.peers.get id = some peer)
      (hempty : peer.input.isEmpty = true) (hopen : peer.guestClosed = false) (heof : peer.hostEof = true)
      (hpush : s.output.push (Frame.close id).encode = some output) :
      LocalMove s ((s.queued peer.serial (.close id) output).gone id peer)
  | writeOutput (n : Nat) (output : Queue) (bytes : Bytes) (h : s.output.write n = some (output, bytes)) :
      LocalMove s { s with output := output, written := s.written ++ bytes }
  | deliver (id : UInt32) (peer : Peer) (n : Nat) (input : Queue) (bytes : Bytes) (h : s.peers.get id = some peer)
      (hwrite : peer.input.write n = some (input, bytes)) :
      LocalMove s (s.setPeer id { peer with input := input, delivered := peer.delivered ++ bytes })
  | hostEof (id : UInt32) (peer : Peer) (h : s.peers.get id = some peer) :
      LocalMove s (s.setPeer id { peer with hostEof := true })
  | take (id : UInt32) (peer : Peer) (bytes : Bytes) (output : Queue) (h : s.peers.get id = some peer)
      (hpush : s.output.push (Frame.data id bytes).encode = some output) :
      LocalMove s ((s.queued peer.serial (.data id bytes) output).setPeer id { peer with taken := peer.taken ++ bytes })

/-- The moves of `Input::read`. -/
inductive InputMove (limits : Limits) (s : State) : State → Prop
  /-- Bytes are read, a header is looked at, or the transport has ended. -/
  | scan (input : Input) (wire : Bytes) (todo : List Frame) (eof : Bool)
      (hrejected : input.rejectedOpen = s.input.rejectedOpen)
      (hheader : s.input.rejectedOpen = true → input.header = s.input.header)
      (heof : eof = true → s.transportEof = true ∨ s.input.rejectedOpen = false) :
      InputMove limits s { s with input := input, wire := wire, todo := todo, transportEof := eof }
  | fail (e : BridgeError) (h : e ≠ .duplicateStream ∧ e ≠ .panicked) : InputMove limits s (s.fail e)
  | duplicate (h : (s.peers.get (headerId s.input.header)).isSome = true) :
      InputMove limits s (s.fail .duplicateStream)
  | opened (id : UInt32) (connecting retrying : Bool) (h : s.peers.get id = none)
      (hrej : s.input.rejectedOpen = false) :
      InputMove limits s { s with
        peers := s.peers.set id
          { input := .new limits.peerBytes limits.chunks, connecting := connecting, retrying := retrying,
            hostEof := false, guestClosed := false, serial := s.opens, accepted := [], delivered := [], taken := [] }
        opens := s.opens + 1
        items := s.items ++ [.opened id] }
  | rejected (h : s.input.rejectedOpen = false) (hlive : s.transportEof = false) :
      InputMove limits s { s with
        input := { s.input with rejectedOpen := true }
        opens := s.opens + 1
        rejected := s.rejected ++ [(s.opens, headerId s.input.header)]
        items := s.items ++ [.rejected (headerId s.input.header)] }
  | answer (output : Queue) (h : s.input.rejectedOpen = true)
      (hpush : s.output.push (Frame.close (headerId s.input.header)).encode = some output) :
      InputMove limits s { s.queued (s.opens - 1) (.close (headerId s.input.header)) output with input := .new }
  | closedUnknown (id : UInt32) (h : s.peers.get id = none) :
      InputMove limits s { s with items := s.items ++ [.closed id] }
  | closed (id : UInt32) (peer : Peer) (h : s.peers.get id = some peer) :
      InputMove limits s { s with
        peers := s.peers.set id { peer with guestClosed := true }
        items := s.items ++ [.closed id] }
  | dataHeader (id : UInt32) (length : Nat) : InputMove limits s { s with items := s.items ++ [.dataHeader id length] }
  | drop (id : UInt32) (bytes : Bytes) (h : ∀ peer, s.peers.get id = some peer → peer.guestClosed = true) :
      InputMove limits s { s with items := s.items ++ bytes.map (Item.byte id) }
  | accept (id : UInt32) (peer : Peer) (bytes : Bytes) (input : Queue) (h : s.peers.get id = some peer)
      (hopen : peer.guestClosed = false) (hpush : peer.input.push bytes = some input) :
      InputMove limits s { s with
        peers := s.peers.set id { peer with input := input, accepted := peer.accepted ++ bytes }
        items := s.items ++ bytes.map (Item.byte id) }

/-- A move of a bridge without a result. -/
inductive Move (limits : Limits) (s s' : State) : Prop
  | onLoop (h : LocalMove s s') (hr : s.result = none)
  | onInput (h : InputMove limits s s') (hr : s.result = none)

/-- Moves one after the other. -/
abbrev Moves (limits : Limits) : State → State → Prop := Relation.ReflTransGen (Move limits)

/-- Moves of the loop only. -/
abbrev LocalMoves : State → State → Prop := Relation.ReflTransGen fun s s' => LocalMove s s' ∧ s.result = none

theorem Moves.invariant {I : State → Prop} (hI : ∀ s s', I s → Move limits s s' → I s') (h : Moves limits s s')
    (h0 : I s) : I s' := by
  induction h with
  | refl => exact h0
  | tail _ hm ih => exact hI _ _ ih hm

theorem LocalMoves.moves (h : LocalMoves s s') : Moves limits s s' := by
  induction h with
  | refl => exact .refl
  | tail _ hm ih => exact ih.tail (.onLoop hm.1 hm.2)

theorem LocalMoves.one (hr : s.result = none) (h : LocalMove s s') : LocalMoves s s' := .single ⟨h, hr⟩

theorem LocalMove.sameDecoder (h : LocalMove s s') (hr : s.result = none) : SameDecoder s s' := by
  cases h with
  | fail e h => exact sameDecoder_fail (not_decoderFailed_of_none hr) ⟨h.1, h.2.1⟩
  | finish heof hdrained hretired =>
    refine ⟨rfl, rfl, rfl, rfl, rfl, rfl, fun e => iff_of_false ?_ (not_decoderFailed_of_none hr e)⟩
    rintro ⟨he, -⟩
    cases he
  | retire id peer h hempty hclosed =>
    refine ⟨rfl, rfl, rfl, rfl, rfl, ?_, fun _ => Iff.rfl⟩
    exact (tokensOf_append _ _).trans (List.append_nil _)
  | close id peer output h hempty hopen heof hpush =>
    refine ⟨rfl, rfl, rfl, rfl, rfl, ?_, fun _ => Iff.rfl⟩
    exact (tokensOf_append _ _).trans (List.append_nil _)
  | _ => exact ⟨rfl, rfl, rfl, rfl, rfl, rfl, fun _ => Iff.rfl⟩

theorem LocalMoves.sameDecoder (h : LocalMoves s s') : SameDecoder s s' := by
  induction h with
  | refl => exact SameDecoder.refl _
  | tail _ hm ih => exact ih.trans (hm.1.sameDecoder hm.2)

/-! ## The parts of the loop -/

variable {f : State → State} {answers : Answers} {e : BridgeError}

theorem LocalMoves.fail (hr : s.result = none)
    (h : e ≠ .invalidHeader ∧ e ≠ .duplicateStream ∧ e ≠ .panicked) : LocalMoves s (s.fail e) :=
  .one hr (.fail e h)

theorem LocalMoves.andThen (h : LocalMoves s s')
    (hf : s'.result = none → LocalMoves s' (f s')) : LocalMoves s (s'.andThen f) :=
  State.andThen_of h fun hr => h.trans (hf hr)

theorem localMoves_retryConnect (hr : s.result = none) : LocalMoves s (s.retryConnect turn id) := by
  unfold State.retryConnect
  split
  · exact .refl
  next peer hp =>
    split
    · split
      · exact .refl
      · exact .fail hr (by decide)
      · exact .one hr (.connection id peer hp _ _)
    · exact .refl

theorem localMoves_retryConnects : ∀ {l : List UInt32} {s : State}, s.result = none →
    LocalMoves s (State.retryConnects turn l s)
  | [], s, _ => .refl
  | id :: l, s, hr => by
    unfold State.retryConnects
    exact (localMoves_retryConnect hr).andThen fun hr' => localMoves_retryConnects hr'

theorem exists_push (frame : Frame) (h : headerSize + frame.payload.length ≤ s.output.room) (serial : Nat) :
    ∃ output, s.output.push frame.encode = some output ∧ s.pushFrame serial frame = s.queued serial frame output := by
  have hle : frame.encode.length ≤ s.output.room := by
    rw [length_encode]
    exact h
  obtain ⟨output, ho⟩ := Queue.push_of_le hle
  refine ⟨output, ho, ?_⟩
  unfold State.pushFrame
  rw [ho]
  rfl

theorem andThen_ended {result : Except BridgeError Unit} (h : s.result = some result) : s.andThen f = s :=
  if_pos (by rw [h]; rfl)

theorem andThen_eq (hr : s.result = none) : s.andThen f = f s := by
  unfold State.andThen
  rw [hr]
  rfl

theorem retirable_iff : s.retirable id = true ↔
    ∃ peer, s.peers.get id = some peer ∧ peer.input.isEmpty = true ∧
      (peer.guestClosed = true ∨ peer.hostEof = true) := by
  unfold State.retirable
  cases s.peers.get id with
  | none => simp
  | some peer => simp

theorem mem_ids : id ∈ s.ids ↔ (s.peers.get id).isSome = true := by
  unfold State.ids
  rw [(List.perm_insertionSort _ _).mem_iff]
  exact AList.lookup_isSome.symm

/-- Another stream that is retired before leaves a stream as it is. -/
theorem localMoves_retire : ∀ {l : List UInt32} {s : State}, l.Nodup → (∀ id ∈ l, s.retirable id = true) →
    s.result = none → LocalMoves s (State.retire l s)
  | [], s, _, _, _ => .refl
  | id :: l, s, hnd, hl, hr => by
    obtain ⟨hid, hnd⟩ := List.nodup_cons.1 hnd
    obtain ⟨peer, hp, hempty, hended⟩ := retirable_iff.1 (hl id (by simp))
    have hrest : ∀ u : State, u.peers = s.peers → ∀ id' ∈ l, (u.gone id peer).retirable id' = true := by
      intro u hu id' hid'
      obtain ⟨q, hq, hq'⟩ := retirable_iff.1 (hl id' (by simp [hid']))
      have hne : id' ≠ id := fun h => hid (h ▸ hid')
      refine retirable_iff.2 ⟨q, ?_, hq'⟩
      show (u.peers.remove id).get id' = some q
      rw [Table.get_remove_of_ne _ hne, hu, hq]
    unfold State.retire
    rw [hp]
    dsimp only
    split
    next hclosed =>
      have hm : LocalMoves s (s.gone id peer) := .one hr (.retire id peer hp hempty hclosed)
      exact hm.trans (localMoves_retire hnd (hrest s rfl) hr)
    next hopen =>
      split
      · exact .refl
      next hroom =>
        obtain ⟨output, ho, hpush⟩ := exists_push (s := s) (.close id)
          (by simp only [Frame.payload, List.length_nil]; omega) peer.serial
        have hq : (s.queued peer.serial (.close id) output).result = none := hr
        have hm : LocalMoves s ((s.queued peer.serial (.close id) output).gone id peer) :=
          .one hr (.close id peer output hp hempty (by simpa using hopen) (by simpa [hopen] using hended) ho)
        rw [hpush, andThen_eq hq]
        exact hm.trans (localMoves_retire hnd (hrest _ rfl) hq)

/-- What is left after the streams have been retired. -/
theorem retire_retirable : ∀ {l : List UInt32} {s : State}, (State.retire l s).result = none →
    (∀ id, (State.retire l s).retirable id = true → s.retirable id = true ∧ id ∉ l) ∨
      (State.retire l s).output.room < headerSize
  | [], s, _ => Or.inl fun id h => ⟨h, List.not_mem_nil⟩
  | id :: l, s, hr => by
    have hgone : ∀ (u : State) (peer : Peer), u.peers = s.peers → (State.retire l (u.gone id peer)).result = none →
        (∀ i, (State.retire l (u.gone id peer)).retirable i = true → s.retirable i = true ∧ i ∉ id :: l) ∨
          (State.retire l (u.gone id peer)).output.room < headerSize := by
      intro u peer hu hr
      refine (retire_retirable hr).imp_left fun h i hi => ?_
      obtain ⟨h, hmem⟩ := h i hi
      obtain ⟨p, hp, hp'⟩ := retirable_iff.1 h
      have hget : (u.peers.remove id).get i = some p := hp
      rw [Table.get_remove] at hget
      split at hget
      · cases hget
      next hne =>
        rw [hu] at hget
        exact ⟨retirable_iff.2 ⟨p, hget, hp'⟩, List.not_mem_cons_of_ne_of_not_mem hne hmem⟩
    unfold State.retire at hr ⊢
    cases hp : s.peers.get id with
    | none =>
      rw [hp] at hr
      dsimp only at hr ⊢
      refine (retire_retirable hr).imp_left fun h i hi => ?_
      obtain ⟨h, hmem⟩ := h i hi
      refine ⟨h, List.not_mem_cons_of_ne_of_not_mem (fun he => ?_) hmem⟩
      obtain ⟨p, hp', -⟩ := retirable_iff.1 h
      rw [he, hp] at hp'
      cases hp'
    | some peer =>
      rw [hp] at hr
      dsimp only at hr ⊢
      split at hr
      next hclosed =>
        rw [if_pos hclosed]
        exact hgone s peer rfl hr
      next hopen =>
        rw [if_neg hopen]
        split at hr
        next hroom =>
          rw [if_pos hroom]
          exact Or.inr hroom
        next hroom =>
          rw [if_neg hroom]
          have hsame : (s.pushFrame peer.serial (.close id)).peers = s.peers := by
            unfold State.pushFrame
            split <;> rfl
          generalize s.pushFrame peer.serial (.close id) = u at hr hsame ⊢
          cases hu : u.result with
          | some r =>
            unfold State.andThen at hr
            rw [if_pos (by rw [hu]; rfl), hu] at hr
            cases hr
          | none =>
            rw [andThen_eq hu] at hr ⊢
            exact hgone u peer hsame hr

theorem retired_retire {s : State} (hr : (State.retire (s.ids.filter s.retirable) s).result = none) :
    (State.retire (s.ids.filter s.retirable) s).Retired := by
  refine (retire_retirable hr).imp_left fun h id => ?_
  rw [← Bool.not_eq_true]
  intro hid
  obtain ⟨hret, hmem⟩ := h id hid
  refine hmem (List.mem_filter.2 ⟨?_, hret⟩)
  obtain ⟨p, hp, -⟩ := retirable_iff.1 hret
  exact mem_ids.2 (by rw [hp]; rfl)

theorem localMoves_writeOutput (hr : s.result = none) (outcome : WriteOutcome) :
    LocalMoves s (s.writeOutput outcome) := by
  unfold State.writeOutput
  split
  · exact .fail hr (by decide)
  · exact .refl
  next n =>
    split
    next output bytes hw => exact .one hr (.writeOutput n output bytes hw)
    · exact .refl

theorem localMoves_writePeer (hr : s.result = none) (outcome : WriteOutcome) :
    LocalMoves s (s.writePeer id outcome) := by
  unfold State.writePeer
  split
  · exact .refl
  next peer hp =>
    split
    · exact .fail hr (by decide)
    · exact .refl
    next n =>
      split
      next input bytes hw => exact .one hr (.deliver id peer n input bytes hp hw)
      · exact .refl

theorem localMoves_readPeer (hr : s.result = none) (received : Received) :
    LocalMoves s (s.readPeer id received) := by
  unfold State.readPeer
  split
  · exact .refl
  next peer hp =>
    split
    next hready =>
      split
      · exact .one hr (.hostEof id peer hp)
      · exact .refl
      · exact .fail hr (by decide)
      next bytes =>
        have hroom : headerSize < s.output.room := by
          simp only [Bool.and_eq_true, decide_eq_true_eq] at hready
          exact hready.2
        have hlen : (bytes.take (min chunkSize (s.output.room - headerSize))).length ≤ s.output.room - headerSize := by
          rw [List.length_take]
          omega
        dsimp only
        generalize bytes.take (min chunkSize (s.output.room - headerSize)) = b at hlen ⊢
        split
        · exact .refl
        · obtain ⟨output, ho, hpush⟩ := exists_push (s := s) (.data id b)
            (by simp only [Frame.payload]; omega) peer.serial
          have hq : (s.queued peer.serial (.data id b) output).result = none := hr
          rw [hpush, andThen_eq hq]
          exact .one hr (.take id peer b output hp ho)
    · exact .refl

theorem localMoves_peerTurn (hr : s.result = none) (entry : UInt32 × Bool × Bool) :
    LocalMoves s (s.peerTurn turn entry) := by
  unfold State.peerTurn
  dsimp only
  split
  · exact .refl
  next peer hp =>
    split
    · split
      · split
        · exact .fail hr (by decide)
        · exact .one hr (.connection entry.1 peer hp false peer.retrying)
      · exact .refl
    · split
      · exact .fail hr (by decide)
      · have hw : LocalMoves s (if (turn.peers entry.1).writable && entry.2.1 then
            s.writePeer entry.1 (turn.peers entry.1).write else s) := by
          split
          · exact localMoves_writePeer hr _
          · exact .refl
        generalize (if (turn.peers entry.1).writable && entry.2.1 then
          s.writePeer entry.1 (turn.peers entry.1).write else s) = u at hw ⊢
        refine hw.andThen fun hr' => ?_
        split
        · exact localMoves_readPeer hr' _
        · exact .refl

theorem localMoves_peerTurns : ∀ {l : List (UInt32 × Bool × Bool)} {s : State}, s.result = none →
    LocalMoves s (State.peerTurns turn l s)
  | [], s, _ => .refl
  | entry :: l, s, hr => by
    unfold State.peerTurns
    exact (localMoves_peerTurn hr entry).andThen fun hr' => localMoves_peerTurns hr'

/-! ## The decoder -/

theorem InputMove.moves (h : InputMove limits s s') (hr : s.result = none) : Moves limits s s' :=
  .single (.onInput h hr)

theorem Moves.inputFail (hr : s.result = none) (h : e ≠ .duplicateStream ∧ e ≠ .panicked) : Moves limits s (s.fail e) :=
  InputMove.moves (.fail e h) hr

/-- Only the input and what it reads change. -/
theorem Moves.scan (hr : s.result = none) (input : Input) (wire : Bytes) (todo : List Frame)
    (hrejected : input.rejectedOpen = s.input.rejectedOpen)
    (hheader : s.input.rejectedOpen = true → input.header = s.input.header) :
    Moves limits s { s with input := input, wire := wire, todo := todo } :=
  InputMove.moves (.scan input wire todo s.transportEof hrejected hheader Or.inl) hr

theorem moves_reset {u : State} (hr : u.result = none) (hrej : u.input.rejectedOpen = false) (todo : List Frame) :
    Moves limits u { u with input := .new, todo := todo } := by
  refine Moves.scan hr .new u.wire todo hrej.symm fun h => ?_
  rw [hrej] at h
  cases h

theorem moves_answerRejected (hr : s.result = none) (hrej : s.input.rejectedOpen = true)
    (hid : headerId s.input.header = id) : Moves limits s (s.answerRejected id) := by
  unfold State.answerRejected
  split
  · exact .refl
  next hroom =>
    obtain ⟨output, ho, hpush⟩ := exists_push (s := s) (.close id)
      (by simp only [Frame.payload, List.length_nil]; omega) (s.opens - 1)
    have hq : (s.queued (s.opens - 1) (.close id) output).result = none := hr
    rw [hpush, andThen_eq hq]
    subst hid
    exact InputMove.moves (.answer output hrej ho) hr

theorem moves_decodeOpen {connect : Connect} (hr : s.result = none) (hlive : s.transportEof = false)
    (hid : headerId s.input.header = id) : Moves limits s (s.decodeOpen limits id connect) := by
  unfold State.decodeOpen
  by_cases hrej : s.input.rejectedOpen = true
  · rw [if_pos hrej]
    exact moves_answerRejected hr hrej hid
  · rw [if_neg hrej]
    rw [Bool.not_eq_true] at hrej
    split
    next hsome =>
      subst hid
      exact InputMove.moves (.duplicate hsome) hr
    next hnone =>
      rw [Bool.not_eq_true, Option.isSome_eq_false_iff, Option.isNone_iff_eq_none] at hnone
      split
      · refine .head (.onInput (.opened id (decide (connect = .connecting))
          (decide (connect = .retryLater)) hnone hrej) hr) ?_
        refine moves_reset ?_ ?_ s.todo.tail
        · exact hr
        · exact hrej
      · subst hid
        refine .head (.onInput (.rejected hrej hlive) hr) ?_
        refine (Moves.scan ?_ { s.input with rejectedOpen := true } s.wire s.todo.tail ?_ ?_).trans
          (moves_answerRejected ?_ rfl rfl)
        · exact hr
        · rfl
        · exact fun _ => rfl
        · exact hr

theorem moves_decodeClose (hr : s.result = none) (hrej : s.input.rejectedOpen = false) :
    Moves limits s (s.decodeClose id) := by
  unfold State.decodeClose
  dsimp only
  split
  next peer hp =>
    refine .head (.onInput (.closed id peer hp) hr) ?_
    refine moves_reset ?_ ?_ s.todo.tail
    · exact hr
    · exact hrej
  next hp =>
    refine .head (.onInput (.closedUnknown id hp) hr) ?_
    refine moves_reset ?_ ?_ s.todo.tail
    · exact hr
    · exact hrej

/-- A payload is read into the items; the stream has been served before. -/
theorem moves_payloadRead {bytes : Bytes} {length : Nat} {u : State} (hr : u.result = none)
    (hrej : u.input.rejectedOpen = false)
      (hu : Moves limits s { u with items := u.items ++ bytes.map (Item.byte id) }) :
    Moves limits s (u.payloadRead id length bytes) := by
  refine hu.trans ?_
  have hread : ∀ input : Input, input.rejectedOpen = false → Moves limits
      { u with items := u.items ++ bytes.map (Item.byte id) }
      { u with items := u.items ++ bytes.map (Item.byte id), wire := u.wire.drop bytes.length, input := input } := by
    intro input hi
    refine Moves.scan ?_ input (u.wire.drop bytes.length) u.todo ?_ fun h => ?_
    · exact hr
    · exact hi.trans hrej.symm
    · have : u.input.rejectedOpen = true := h
      rw [hrej] at this
      cases this
  unfold State.payloadRead
  dsimp only
  split
  · exact hread .new rfl
  · exact hread _ hrej

theorem moves_decodePayload {length : Nat} {outcome : ReadOutcome} (hr : s.result = none)
    (hrej : s.input.rejectedOpen = false) : Moves limits s (s.decodePayload id length outcome) := by
  unfold State.decodePayload
  split
  · exact moves_reset hr hrej s.todo
  · dsimp only
    split
    · exact .refl
    · split
      · exact Moves.inputFail hr (by decide)
      · exact Moves.inputFail hr (by decide)
      · exact .refl
      next n =>
        generalize hk : min n (min (min length chunkSize) _) = k
        split
        · exact .refl
        · cases hp : (s.peers.get id).filter fun peer => !peer.guestClosed with
          | none =>
            refine moves_payloadRead hr hrej (InputMove.moves (.drop id _ ?_) hr)
            intro peer hpeer
            rw [hpeer, Option.filter_eq_none_iff] at hp
            simpa using hp peer rfl
          | some peer =>
            obtain ⟨hpeer, hopen⟩ := Option.filter_eq_some_iff.1 hp
            rw [hp] at hk
            have hroom : (s.wire.take k).length ≤ peer.input.room := by
              rw [List.length_take]
              dsimp only [Option.elim] at hk
              omega
            obtain ⟨input, hpush⟩ := Queue.push_of_le hroom
            dsimp only
            rw [hpush]
            have haccept : InputMove limits s _ :=
              .accept id peer (s.wire.take k) input hpeer (by simpa using hopen) hpush
            refine moves_payloadRead ?_ ?_ (haccept.moves hr)
            · exact hr
            · exact hrej

theorem moves_decode (hr : s.result = none) (hlive : s.transportEof = false)
    (hkind : s.input.rejectedOpen = true → headerKind s.input.header = kindOpen) :
    Moves limits s (s.decode limits answers) := by
  have hscan : ∀ length : Nat, Moves limits s { s with input := { s.input with remaining := some length } } :=
    fun length => Moves.scan hr { s.input with remaining := some length } s.wire s.todo rfl fun _ => rfl
  have hrej : headerKind s.input.header ≠ kindOpen → s.input.rejectedOpen = false := by
    intro h
    rw [← Bool.not_eq_true]
    exact fun hrej => h (hkind hrej)
  unfold State.decode
  dsimp only
  generalize s.input.remaining.getD (headerLength s.input.header) = length
  split
  · have hfail : BridgeError.invalidHeader ≠ .duplicateStream ∧ BridgeError.invalidHeader ≠ .panicked := by decide
    refine (hscan length).trans (Moves.inputFail ?_ hfail)
    exact hr
  · split
    · exact (hscan length).trans (moves_decodeOpen hr hlive rfl)
    next hopen =>
      split
      · exact (hscan length).trans (moves_decodeClose hr (hrej hopen))
      · split
        · refine (hscan length).trans (.head (.onInput (.dataHeader (headerId s.input.header) length) hr) ?_)
          refine (Moves.scan ?_ { s.input with remaining := some length } s.wire s.todo.tail ?_ ?_).trans
            (moves_decodePayload ?_ ?_)
          · exact hr
          · rfl
          · exact fun _ => rfl
          · exact hr
          · exact hrej hopen
        · exact (hscan length).trans (moves_decodePayload hr (hrej hopen))

theorem moves_readInput (hd : Decodes s) (hr : s.result = none) (hlive : s.transportEof = false) :
    Moves limits s (s.readInput limits answers).1 := by
  unfold State.readInput
  split
  next hlt =>
    have hrej : s.input.rejectedOpen = false := by
      rw [← Bool.not_eq_true]
      intro h
      have := (hd.of_rejectedOpen hr h).1.1
      omega
    have hscan : ∀ (header : Bytes) (wire : Bytes),
        Moves limits s { s with wire := wire, input := { s.input with header := header } } := fun header wire =>
      Moves.scan hr { s.input with header := header } wire s.todo rfl fun h => by
        rw [hrej] at h
        cases h
    split
    · split
      · exact .refl
      · exact Moves.inputFail hr (by decide)
    · exact Moves.inputFail hr (by decide)
    · exact .refl
    · dsimp only
      split
      · exact hscan _ _
      · exact (hscan _ _).trans (moves_decode hr hlive fun h => by
          have : s.input.rejectedOpen = true := h
          rw [hrej] at this
          cases this)
  · exact moves_decode hr hlive fun h => (hd.of_rejectedOpen hr h).1.2

/-! ## A turn -/

theorem readInput_eof (h : (s.readInput limits answers).2 = false) :
    (s.readInput limits answers).1 = s ∧ s.input.header = [] := by
  unfold State.readInput at h ⊢
  split at h
  next hlt =>
    rw [if_pos hlt]
    cases ha : answers.header with
    | eof =>
      rw [ha] at h
      dsimp only at h ⊢
      split at h
      next hnil =>
        rw [if_pos hnil]
        exact ⟨rfl, hnil⟩
      · cases h
    | upTo n =>
      rw [ha] at h
      dsimp only at h
      split at h <;> cases h
    | failed =>
      rw [ha] at h
      cases h
    | retry =>
      rw [ha] at h
      cases h
  · cases h

/-- Moves that leave the decoder in the frames of the guest. -/
structure Goes (limits : Limits) (s s' : State) : Prop where
  moves : Moves limits s s'
  decodes : Decodes s'

theorem Goes.refl (hd : Decodes s) : Goes limits s s := ⟨.refl, hd⟩

theorem Goes.local (hd : Decodes s) (h : LocalMoves s s') : Goes limits s s' := ⟨h.moves, hd.frame h.sameDecoder⟩

theorem Goes.trans (h : Goes limits s s') (h' : Goes limits s' t) : Goes limits s t :=
  ⟨h.moves.trans h'.moves, h'.decodes⟩

theorem Goes.andThen (h : Goes limits s s')
    (hf : Decodes s' → s'.result = none → Goes limits s' (f s')) : Goes limits s (s'.andThen f) :=
  State.andThen_of h fun hr => h.trans (hf h.decodes hr)

theorem Goes.ite {c : Prop} [Decidable c] {u v : State} (hu : c → Goes limits s u) (hv : Goes limits s v) :
    Goes limits s (if c then u else v) := by
  by_cases h : c
  · rw [if_pos h]
    exact hu h
  · rw [if_neg h]
    exact hv

theorem Goes.fail (hd : Decodes s) (hr : s.result = none)
    (h : e ≠ .invalidHeader ∧ e ≠ .duplicateStream ∧ e ≠ .panicked) : Goes limits s (s.fail e) :=
  Goes.local hd (.fail hr h)

theorem goes_readInput (hd : Decodes s) (hr : s.result = none) (hlive : s.transportEof = false) :
    Goes limits s (s.readInput limits answers).1 :=
  ⟨moves_readInput hd hr hlive, hd.readInput hr⟩

theorem goes_afterPoll {canRead : Bool} {entries : List (UInt32 × Bool × Bool)} (hd : Decodes s)
    (hr : s.result = none) : Goes limits s (s.afterPoll limits turn canRead entries) := by
  unfold State.afterPoll
  have hread : Goes limits s (if !s.transportEof && turn.transportReady then
      if !canRead then s.fail .connectionAborted
      else
        let r := s.readInput limits turn.transport
        if r.2 then r.1 else { r.1 with transportEof := true }
    else s) := by
    split
    next h =>
      have hlive : s.transportEof = false := by
        simp only [Bool.and_eq_true, Bool.not_eq_true'] at h
        exact h.1
      split
      · exact Goes.local hd (.fail hr (by decide))
      · dsimp only
        split
        · exact goes_readInput hd hr hlive
        next heof =>
          obtain ⟨hsame, hnil⟩ := readInput_eof (Bool.not_eq_true _ ▸ heof)
          rw [hsame]
          refine ⟨.single (.onInput (.scan s.input s.wire s.todo true rfl (fun _ => rfl) fun _ => Or.inr ?_) hr), ?_⟩
          · rw [← Bool.not_eq_true]
            intro hrej
            have := (hd.of_rejectedOpen hr hrej).1.1
            rw [hnil] at this
            cases this
          · exact hd.frame ⟨rfl, rfl, rfl, rfl, rfl, rfl, fun _ => Iff.rfl⟩
    · exact Goes.refl hd
  refine hread.andThen fun hd hr => Goes.andThen ?_ fun hd hr => Goes.andThen ?_ fun hd hr =>
    Goes.local hd (localMoves_peerTurns hr)
  · exact Goes.ite (fun _ => Goes.fail hd hr (by decide)) (Goes.refl hd)
  · exact Goes.ite (fun _ => Goes.local hd (localMoves_writeOutput hr _)) (Goes.refl hd)

theorem ids_nodup (s : State) : s.ids.Nodup :=
  (List.perm_insertionSort _ _).nodup_iff.2 s.peers.nodupKeys

theorem goes_pollTurn (hd : Decodes s) (hr : s.result = none) (hretired : s.Retired) :
    Goes limits s (s.pollTurn limits turn) := by
  unfold State.pollTurn
  refine Goes.ite (fun h => ?_) ?_
  · rw [Bool.and_eq_true] at h
    exact Goes.local hd (.one hr (.finish h.1 h.2 hretired))
  · dsimp only
    generalize s.readable = canRead
    generalize (s.ids.rotateLeft (s.rotation % s.ids.length)).map s.polled = entries
    have hrotate : Goes limits s (if s.ids.isEmpty then s else { s with rotation := (s.rotation + 1) % 2 ^ 64 }) :=
      Goes.ite (fun _ => Goes.refl hd) (Goes.local hd (.one hr (.rotate _)))
    have hresult : (if s.ids.isEmpty then s else { s with rotation := (s.rotation + 1) % 2 ^ 64 }).result = none := by
      split <;> exact hr
    generalize (if s.ids.isEmpty then s else { s with rotation := (s.rotation + 1) % 2 ^ 64 }) = u at hrotate hresult ⊢
    split
    · exact hrotate
    · exact hrotate.trans (Goes.fail hrotate.decodes hresult (by decide))
    · exact hrotate.trans (goes_afterPoll hrotate.decodes hresult)

/-- The part of a turn behind the resumed read. -/
theorem goes_behindResume (hd : Decodes s) (hr : s.result = none) :
    Goes limits s ((if turn.expired then s.fail .timedOut else s).andThen fun s =>
      (State.retire (s.ids.filter s.retirable) s).andThen (State.pollTurn limits turn)) := by
  refine Goes.andThen ?_ fun hd hr => Goes.andThen ?_ fun hd hr => goes_pollTurn hd hr (retired_retire hr)
  · exact Goes.ite (fun _ => Goes.fail hd hr (by decide)) (Goes.refl hd)
  · refine Goes.local hd (localMoves_retire ((ids_nodup _).filter _) (fun id hid => ?_) hr)
    exact (List.mem_filter.1 hid).2

/-- A turn is made of moves, and leaves the decoder in the frames of the guest. -/
theorem goes_iterate (hd : Decodes s) (hr : s.result = none) : Goes limits s (s.iterate limits turn) := by
  unfold State.iterate
  refine (Goes.local hd (localMoves_retryConnects hr)).andThen fun hd hr => Goes.andThen ?_ fun hd hr =>
    goes_behindResume hd hr
  refine Goes.ite (fun h => ?_) (Goes.refl hd)
  simp only [Bool.and_eq_true, Bool.not_eq_true'] at h
  exact goes_readInput hd hr h.1.1

/-! ## A rejected OPEN is answered -/

theorem sent_move (h : Move limits s s') : s'.guest = s.guest ∧ s.sent <+: s'.sent := by
  rcases h with ⟨h, -⟩ | ⟨h, -⟩
  · cases h with
    | close id peer output h hempty hopen heof hpush => exact ⟨rfl, List.prefix_append _ _⟩
    | take id peer bytes output h hpush => exact ⟨rfl, List.prefix_append _ _⟩
    | _ => exact ⟨rfl, List.prefix_rfl⟩
  · cases h with
    | answer output h hpush => exact ⟨rfl, List.prefix_append _ _⟩
    | _ => exact ⟨rfl, List.prefix_rfl⟩

theorem sent_moves (h : Moves limits s s') : s'.guest = s.guest ∧ s.sent <+: s'.sent := by
  induction h with
  | refl => exact ⟨rfl, List.prefix_rfl⟩
  | tail _ hm ih =>
    have := sent_move hm
    exact ⟨this.1.trans ih.1, ih.2.trans this.2⟩

/-- The retries change the streams, or fail. -/
theorem retryConnects_eq (turn : Turn) : ∀ (l : List UInt32) (s : State), s.result = none →
    ∃ peers result, State.retryConnects turn l s = { s with peers := peers, result := result } ∧
      (result = none ∨ result = some (.error .ioFailed))
  | [], s, hr => ⟨s.peers, s.result, rfl, Or.inl hr⟩
  | id :: l, s, hr => by
    have hone : ∃ peers result, s.retryConnect turn id = { s with peers := peers, result := result } ∧
        (result = none ∨ result = some (.error .ioFailed)) := by
      unfold State.retryConnect
      split
      · exact ⟨s.peers, s.result, rfl, Or.inl hr⟩
      · split
        · split
          · exact ⟨s.peers, s.result, rfl, Or.inl hr⟩
          · exact ⟨s.peers, _, rfl, Or.inr rfl⟩
          · exact ⟨_, s.result, rfl, Or.inl hr⟩
        · exact ⟨s.peers, s.result, rfl, Or.inl hr⟩
    obtain ⟨peers, result, hone, rfl | rfl⟩ := hone
    · obtain ⟨peers', result', hrest, hresult⟩ := retryConnects_eq turn l { s with peers := peers, result := none } rfl
      refine ⟨peers', result', ?_, hresult⟩
      unfold State.retryConnects
      rw [hone, andThen_eq rfl, hrest]
    · refine ⟨peers, _, ?_, Or.inr rfl⟩
      unfold State.retryConnects
      rw [hone]
      rfl

/-- The resumed read answers a rejected OPEN that waits, with room for its CLOSE. -/
theorem readInput_rejected (limits : Limits) (answers : Answers) (hd : Decodes s) (hr : s.result = none)
    (hrej : s.input.rejectedOpen = true) (hroom : headerSize ≤ s.output.room) :
    s.input.header.length = headerSize ∧ s.readable = true ∧ (s.readInput limits answers).1.result = none ∧
      (s.readInput limits answers).1.sent = s.sent ++ [(s.opens - 1, .close (headerId s.input.header))] := by
  obtain ⟨header, remaining, -, -⟩ := hd.of_rejectedOpen hr hrej
  have hlen : ¬ s.input.header.length < headerSize := by
    rw [header.1]
    exact Nat.lt_irrefl _
  refine ⟨header.1, ?_, ?_⟩
  · unfold State.readable
    rw [if_neg hlen, header.2, if_neg (by decide), if_pos rfl, decide_eq_true hroom, Bool.or_true]
  · obtain ⟨output, -, hpush⟩ := exists_push (s := s) (.close (headerId s.input.header)) hroom (s.opens - 1)
    have hq : (s.queued (s.opens - 1) (.close (headerId s.input.header)) output).result = none := hr
    unfold State.readInput
    rw [if_neg hlen, decode_rejected header.2 remaining hrej]
    unfold State.answerRejected
    rw [if_neg (Nat.not_lt.2 hroom), hpush, andThen_eq hq]
    exact ⟨hr, rfl⟩

/-- With room for its CLOSE, a rejected OPEN that waits is answered in the next turn, unless a retry fails before. -/
theorem answered_iterate (hd : Decodes s) (hr : s.result = none) (hlive : s.transportEof = false)
    (hrej : s.input.rejectedOpen = true) (hroom : headerSize ≤ s.output.room) :
    (s.iterate limits turn).result = some (.error .ioFailed) ∨
    (s.opens - 1, .close (headerId s.input.header)) ∈ (s.iterate limits turn).sent := by
  have hdu := hd.frame (localMoves_retryConnects hr : LocalMoves s (State.retryConnects turn s.ids s)).sameDecoder
  obtain ⟨peers, result, hu, hresult⟩ := retryConnects_eq turn s.ids s hr
  unfold State.iterate
  generalize State.retryConnects turn s.ids s = u at hdu hu ⊢
  have hinput : u.input = s.input := by rw [hu]
  have hopens : u.opens = s.opens := by rw [hu]
  have houtput : u.output = s.output := by rw [hu]
  have heof : u.transportEof = false := by rw [hu, ← hlive]
  have hru : u.result = result := by rw [hu]
  rw [← hinput] at hrej ⊢
  rw [← houtput] at hroom
  rw [← hopens]
  obtain rfl | rfl := hresult
  · obtain ⟨hlen, hreadable, hnone, hsent⟩ := readInput_rejected limits turn.resume hdu hru hrej hroom
    have hgoes : Goes limits u (u.readInput limits turn.resume).1 := goes_readInput hdu hru heof
    have hresume : (!u.transportEof && decide (u.input.header.length = headerSize) && u.readable) = true := by
      rw [heof, decide_eq_true hlen, hreadable]
      rfl
    rw [andThen_eq hru, if_pos hresume, andThen_eq hnone]
    refine Or.inr ((sent_moves (goes_behindResume hgoes.decodes hnone).moves).2.subset ?_)
    rw [hsent]
    exact List.mem_append_right _ (List.mem_singleton.2 rfl)
  · rw [andThen_ended hru]
    exact Or.inl hru

/-! ## Runs -/

theorem decodes_new (limits : Limits) : Decodes (.new limits) := by
  have hresult : ∀ e, (State.new limits).result = some (.error e) → e = .invalidLimits := by
    intro e he
    unfold State.new at he
    dsimp only at he
    split at he
    · cases he
    · cases he
      rfl
  refine ⟨.between rfl rfl (fun _ => ⟨Nat.zero_lt_succ 8, rfl, rfl⟩) (fun h => ?_) (fun h => ?_), nofun, nofun⟩
  · cases hresult _ h
  · cases hresult _ h

theorem Decodes.guest (hd : Decodes s) (hr : s.result = none) (ht : s.tail = none) {frame : Frame}
    (hf : frame.WellFormed) :
    Decodes { s with wire := s.wire ++ frame.encode, guest := s.guest ++ [frame], todo := s.todo ++ [frame] } := by
  have hahead : State.ahead { s with wire := s.wire ++ frame.encode, guest := s.guest ++ [frame], todo := s.todo ++
    [frame] } =
      s.ahead ++ frame.encode := by
    unfold State.ahead
    dsimp only
    rw [ht, List.flatMap_append, List.flatMap_singleton]
    simp
  have hguest : frameTokens (s.guest ++ [frame]) = frameTokens s.guest ++ frame.tokens := by
    unfold frameTokens
    rw [List.flatMap_append, List.flatMap_singleton]
  have htodo : frameTokens (s.todo ++ [frame]) = frameTokens s.todo ++ frame.tokens := by
    unfold frameTokens
    rw [List.flatMap_append, List.flatMap_singleton]
  refine ⟨?_, fun f hmem => ?_, hd.tail⟩
  · cases hd.position with
    | between wire tokens unfinished invalid duplicate =>
      refine .between ?_ ?_ unfinished (fun h => ?_) (fun h => ?_)
      · rw [hahead, ← wire, List.append_assoc]
      · show tokensOf s.items ++ frameTokens (s.todo ++ [frame]) = frameTokens (s.guest ++ [frame])
        rw [htodo, hguest, ← tokens, List.append_assoc]
        rfl
      · rw [hr] at h
        cases h
      · rw [hr] at h
        cases h
    | payload rest header remaining within unrejected wire tokens valid =>
      refine .payload rest header remaining within unrejected ?_ ?_ valid
      · rw [hahead, ← List.append_assoc, ← wire]
      · show tokensOf s.items ++ (_ ++ frameTokens (s.todo ++ [frame])) = frameTokens (s.guest ++ [frame])
        rw [htodo, hguest, ← tokens, List.append_assoc, List.append_assoc]
        rfl
    | rejected header remaining unanswered wire tokens valid =>
      refine .rejected header remaining unanswered ?_ ?_ valid
      · rw [hahead, ← wire]
      · show tokensOf s.items ++ frameTokens (s.todo ++ [frame]) = frameTokens (s.guest ++ [frame])
        rw [htodo, hguest, ← tokens, List.append_assoc]
        rfl
  · rcases List.mem_append.1 hmem with h | h
    · exact hd.wellFormed f h
    · obtain rfl := List.mem_singleton.1 h
      exact hf

/-- The guest sends bytes that do not start with a frame. -/
theorem Decodes.garbage (hd : Decodes s) (ht : s.tail = none) {bytes : Bytes}
    (hb : bytes.length < headerSize ∨ validHeader bytes = false) :
    Decodes { s with wire := s.wire ++ bytes, tail := some bytes } := by
  have hahead : State.ahead { s with wire := s.wire ++ bytes, tail := some bytes } = s.ahead ++ bytes := by
    unfold State.ahead
    dsimp only
    rw [ht]
    simp
  refine ⟨?_, hd.wellFormed, fun b hb' => ?_⟩
  · cases hd.position with
    | between wire tokens unfinished invalid duplicate =>
      refine .between ?_ tokens unfinished invalid duplicate
      rw [hahead, ← wire, List.append_assoc]
    | payload rest header remaining within unrejected wire tokens valid =>
      refine .payload rest header remaining within unrejected ?_ tokens valid
      rw [hahead, ← List.append_assoc, ← wire]
    | rejected header remaining unanswered wire tokens valid =>
      refine .rejected header remaining unanswered ?_ tokens valid
      rw [hahead, ← wire]
  · obtain rfl : bytes = b := Option.some.inj hb'
    exact hb

/-- What a step does: a frame of the guest, other bytes of the guest, or moves of the bridge. -/
theorem step_cases {e : Event} (hd : Decodes s) (h : step limits s e = some s') :
    (∃ frame, e = .guest frame ∧
      s' = { s with wire := s.wire ++ frame.encode, guest := s.guest ++ [frame], todo := s.todo ++ [frame] }) ∨
    (∃ bytes, e = .garbage bytes ∧ s' = { s with wire := s.wire ++ bytes, tail := some bytes }) ∨
    (∃ turn, e = .turn turn ∧ Moves limits s s') := by
  unfold step at h
  cases e with
  | guest frame =>
    refine Or.inl ⟨frame, rfl, ?_⟩
    dsimp only at h
    split at h <;> cases h
    rfl
  | garbage bytes =>
    refine Or.inr (Or.inl ⟨bytes, rfl, ?_⟩)
    dsimp only at h
    split at h <;> cases h
    rfl
  | turn turn =>
    refine Or.inr (Or.inr ⟨turn, rfl, ?_⟩)
    dsimp only at h
    split at h
    next hc =>
      cases h
      exact (goes_iterate hd (Option.isNone_iff_eq_none.1 hc)).moves
    · cases h

theorem Decodes.step {e : Event} (hd : Decodes s) (h : Relay.step limits s e = some s') : Decodes s' := by
  unfold Relay.step at h
  cases e with
  | guest frame =>
    dsimp only at h
    split at h
    next hc =>
      cases h
      exact hd.guest (Option.isNone_iff_eq_none.1 hc.1) hc.2.1 hc.2.2
    · cases h
  | garbage bytes =>
    dsimp only at h
    split at h
    next hc =>
      cases h
      exact hd.garbage hc.2.1 hc.2.2
    · cases h
  | turn turn =>
    dsimp only at h
    split at h
    next hc =>
      cases h
      exact (goes_iterate hd (Option.isNone_iff_eq_none.1 hc)).decodes
    · cases h

theorem decodes_of_reachable (h : (system limits).Reachable s) : Decodes s := by
  refine System.Reachable.invariant ?_ (fun s e s' hd hst => ?_) h
  · exact decodes_new limits
  · exact hd.step hst

/-- The rule for what moves keep and the bytes of the guest do not touch. -/
theorem invariant_of_moves {I : State → Prop} (h0 : I (.new limits)) (hm : ∀ s s', I s → Move limits s s' → I s')
    (hg : ∀ s wire guest tail todo, I s → I { s with wire := wire, guest := guest, tail := tail, todo := todo })
    (h : (system limits).Reachable s) : I s := by
  have hboth : Decodes s ∧ I s := by
    refine System.Reachable.invariant (I := fun s => Decodes s ∧ I s) ?_ (fun s e s' hi hst => ?_) h
    · exact ⟨decodes_new limits, h0⟩
    · refine ⟨hi.1.step hst, ?_⟩
      obtain ⟨frame, -, rfl⟩ | ⟨bytes, -, rfl⟩ | ⟨turn, -, hmoves⟩ := step_cases hi.1 hst
      · exact hg s _ _ s.tail _ hi.2
      · exact hg s _ s.guest _ s.todo hi.2
      · exact hmoves.invariant hm hi.2
  exact hboth.2

end CocoaWay.Relay
