import CocoaWay.Relay.Delivery
import CocoaWay.Relay.Reuse

/-!
# What the bridge carries in both directions

* `decoder_carries_streams` : every stream has been given exactly the DATA addressed to it while it was open, whatever
  the reads; bytes that are no frame end the loop before any of them is taken for a payload;
* `bridge_carries_streams` : the bytes read from a local socket are sent once and in order, followed by the CLOSE of the
  host unless the guest has closed the stream; nothing accepted is lost when the loop returns; ids are reused behind the
  CLOSE of the host.
-/

namespace CocoaWay.Relay
open Lib

variable {s : State} {limits : Limits}

/-! ## Reachable states -/

theorem streams_of_reachable (h : (system limits).Reachable s) : Custody s ∧ Sending s ∧ Delivery s := by
  refine invariant_of_moves (I := fun s => Custody s ∧ Sending s ∧ Delivery s) ?_ ?_ ?_ h
  · exact ⟨custody_new limits, sending_new limits, delivery_new limits⟩
  · exact fun s s' hi hm => ⟨hi.1.move hm, hi.2.1.move hi.1 hm, hi.2.2.move hi.1 hm⟩
  · rintro s wire guest tail todo ⟨hc, hs, hd⟩
    exact ⟨⟨hc.perm, hc.waiting, hc.live⟩, ⟨hs.flow, hs.numbered, hs.alive, hs.retired, hs.rejected⟩,
      ⟨hd.alive, hd.retired, hd.rejected, hd.fresh, hd.queued, hd.written⟩⟩

theorem balance_of_reachable (h : (system limits).Reachable s) : Balance s :=
  invariant_of_moves (I := Balance) (balance_new limits) (fun _ _ hb hm => hb.move hm) (fun _ _ _ _ _ hb => hb) h

theorem ended_of_reachable (h : (system limits).Reachable s) : Ended s :=
  invariant_of_moves (I := Ended) (ended_new limits) (fun _ _ _ hm => .move hm)
    (fun _ _ _ _ _ he => ⟨he.ok, he.sound, he.duplicate⟩) h

/-- A bridge with room for a CLOSE when its output is empty. -/
def Roomy (s : State) : Prop :=
  s.result = some (.error .invalidLimits) ∨ (headerSize < s.output.limit ∧ 0 < s.output.chunkLimit)

theorem Roomy.move {s' : State} (hi : Roomy s) (h : Move limits s s') : Roomy s' := by
  have hpush : ∀ {bytes : Bytes} {output : Queue}, s.output.push bytes = some output → s.result = none →
      headerSize < output.limit ∧ 0 < output.chunkLimit := by
    intro bytes output h hr
    obtain ⟨h1, h2⟩ := Queue.push_limits h
    rw [h1, h2]
    refine hi.resolve_left fun hl => ?_
    rw [hr] at hl
    cases hl
  have hsame : s.result = none → headerSize < s.output.limit ∧ 0 < s.output.chunkLimit := by
    intro hr
    refine hi.resolve_left fun hl => ?_
    rw [hr] at hl
    cases hl
  rcases h with ⟨h, hr⟩ | ⟨h, hr⟩
  · cases h with
    | writeOutput n output bytes h =>
      obtain ⟨h1, h2⟩ := Queue.write_limits h
      refine Or.inr ?_
      dsimp only
      rw [h1, h2]
      exact hsame hr
    | close id peer output h hempty hopen heof hp => exact Or.inr (hpush hp hr)
    | take id peer bytes output h hp => exact Or.inr (hpush hp hr)
    | _ => exact Or.inr (hsame hr)
  · cases h with
    | answer output h hp => exact Or.inr (hpush hp hr)
    | _ => exact Or.inr (hsame hr)

theorem roomy_of_reachable (h : (system limits).Reachable s) : Roomy s := by
  refine invariant_of_moves (I := Roomy) ?_ (fun _ _ hi hm => hi.move hm) (fun _ _ _ _ _ hi => hi) h
  by_cases hv : limits.valid = true
  · refine Or.inr ?_
    unfold Limits.valid at hv
    rw [decide_eq_true_eq] at hv
    exact ⟨hv.2.2.1, Nat.pos_of_ne_zero hv.2.2.2⟩
  · refine Or.inl ?_
    unfold State.new
    rw [if_neg hv]

theorem Roomy.room (hi : Roomy s) (hr : s.result ≠ some (.error .invalidLimits)) (hempty : s.output.isEmpty = true) :
    headerSize ≤ s.output.room := by
  obtain ⟨hlimit, hchunks⟩ := hi.resolve_left hr
  have hnil : s.output.chunks = [] := List.isEmpty_iff.1 hempty
  have hbytes : s.output.bytes = 0 := by
    rw [s.output.bytes_eq, hnil]
    rfl
  unfold Queue.room
  rw [hnil, List.length_nil, if_neg (by omega), hbytes]
  omega

/-- When the loop returns, no stream waits for anything. -/
theorem returned (h : (system limits).Reachable s) (hr : s.result = some (.ok ())) :
    s.output.pending = [] ∧ s.input.rejectedOpen = false ∧
    ∀ id peer, s.peers.get id = some peer →
      peer.input.pending = [] ∧ peer.hostEof = false ∧ peer.guestClosed = false := by
  obtain ⟨heof, hdrained, hretired⟩ := (ended_of_reachable h).ok hr
  unfold State.drained at hdrained
  rw [Bool.and_eq_true, List.all_eq_true] at hdrained
  refine ⟨Queue.isEmpty_iff.1 hdrained.1, (streams_of_reachable h).1.live heof, fun id peer hp => ?_⟩
  have hempty : peer.input.isEmpty = true := by
    have := hdrained.2 id (mem_ids.2 (by rw [hp]; rfl))
    rw [hp] at this
    exact this
  have hroom : ¬ s.output.room < headerSize := by
    have := (roomy_of_reachable h).room (by rw [hr]; exact nofun) hdrained.1
    omega
  have hret := (hretired.resolve_right hroom) id
  unfold State.retirable at hret
  rw [hp] at hret
  simp only [Option.any_some, hempty, Bool.true_and, Bool.or_eq_false_iff] at hret
  exact ⟨Queue.isEmpty_iff.1 hempty, hret.2, hret.1⟩

/-! ## From the guest to the streams -/

theorem Decodes.tokens_le (hd : Decodes s) : tokensOf s.items <+: frameTokens s.guest := by
  cases hd.position with
  | between wire tokens unfinished invalid duplicate => exact ⟨_, tokens⟩
  | payload rest header remaining within unrejected wire tokens valid => exact ⟨_, tokens⟩
  | rejected header remaining unanswered wire tokens valid => exact ⟨_, tokens⟩

theorem Decodes.complete (hd : Decodes s) (hwire : s.wire = []) (hheader : s.input.header = []) :
    tokensOf s.items = frameTokens s.guest := by
  cases hd.position with
  | payload rest header =>
    rw [hheader] at header
    cases header.1
  | rejected header =>
    rw [hheader] at header
    cases header.1
  | between wire tokens unfinished invalid duplicate =>
    rw [hwire, hheader] at wire
    have htodo : s.todo = [] := by
      cases hl : s.todo with
      | nil => rfl
      | cons f rest =>
        have := congrArg List.length wire
        unfold State.ahead at this
        rw [hl, List.flatMap_cons, encode_eq] at this
        simp [length_header, headerSize] at this
        omega
    rw [← tokens, State.tokensAhead, htodo]
    exact (List.append_nil _).symm

/-- Only bytes that are no frame are rejected, and nothing of them is decoded. -/
theorem Decodes.invalid (hd : Decodes s) (hr : s.result = some (.error .invalidHeader)) :
    ∃ bytes, s.tail = some bytes ∧ tokensOf s.items = frameTokens s.guest ∧
      s.input.header.length = headerSize ∧ s.input.header ++ s.wire = bytes := by
  have hfailed : s.decoderFailed .invalidHeader := ⟨hr, Or.inl rfl⟩
  cases hd.position with
  | payload rest header remaining within unrejected wire tokens valid => exact absurd hfailed (valid _)
  | rejected header remaining unanswered wire tokens valid => exact absurd hfailed (valid _)
  | between wire tokens unfinished invalid duplicate =>
    obtain ⟨htodo, hlen⟩ := invalid hr
    unfold State.ahead at wire
    rw [htodo, List.flatMap_nil, List.nil_append] at wire
    have htokens : tokensOf s.items = frameTokens s.guest := by
      rw [← tokens, State.tokensAhead, htodo]
      exact (List.append_nil _).symm
    cases ht : s.tail with
    | none =>
      rw [ht] at wire
      have := congrArg List.length wire
      rw [List.length_append, hlen] at this
      simp [headerSize] at this
    | some bytes =>
      rw [ht] at wire
      exact ⟨bytes, rfl, htokens, hlen, wire⟩

/-- As soon as the header of bytes that are no frame has been read, the loop has ended with it. -/
theorem Decodes.rejects (hd : Decodes s) {bytes : Bytes} (ht : s.tail = some bytes)
    (hread : s.wire.length + headerSize ≤ bytes.length) : s.result = some (.error .invalidHeader) := by
  have hahead : bytes.length ≤ s.ahead.length := by
    unfold State.ahead
    rw [ht, List.length_append]
    exact Nat.le_add_left _ _
  cases hd.position with
  | payload rest header remaining within unrejected wire tokens valid =>
    rw [wire, List.length_append] at hread
    unfold headerSize at hread
    omega
  | rejected header remaining unanswered wire tokens valid =>
    rw [wire] at hread
    unfold headerSize at hread
    omega
  | between wire tokens unfinished invalid duplicate =>
    have hlen := congrArg List.length wire
    rw [List.length_append] at hlen
    by_cases hnone : ∀ e, ¬ s.decoderFailed e
    · have := (unfinished hnone).1
      omega
    · obtain ⟨e, hfailed⟩ := not_forall.1 hnone
      obtain ⟨hr, rfl | rfl⟩ := not_not.1 hfailed
      · exact hr
      · obtain ⟨hheader, rest, htodo⟩ := duplicate hr
        unfold State.ahead at hlen
        rw [htodo, ht, List.flatMap_cons, encode_eq, List.length_append, List.length_append, List.length_append,
          length_header, Option.getD_some] at hlen
        unfold headerSize at hread hheader hlen
        omega

/-- What was decoded is a part of what the guest sent, frame by frame and byte by byte, and all of it once everything is
read; each stream has been given the bytes addressed to it while it was open, written or still queued; bytes that are no
frame are rejected as soon as their header has been read, with nothing of them decoded, and a guest that sends frames
only is not rejected. -/
theorem decoder_carries_streams (h : (system limits).Reachable s) :
    tokensOf s.items <+: frameTokens s.guest ∧
    (s.wire = [] → s.input.header = [] → tokensOf s.items = frameTokens s.guest) ∧
    (∀ id peer, s.peers.get id = some peer → peer.accepted = (track peer.serial s.items).received ∧
      peer.accepted = peer.delivered ++ peer.input.pending) ∧
    (∀ id peer, (id, peer) ∈ s.retired → peer.accepted = (track peer.serial s.items).received ∧
      peer.accepted = peer.delivered) ∧
    (∀ n id, (n, id) ∈ s.rejected → (track n s.items).received = []) ∧
    (s.result = some (.error .invalidHeader) → ∃ bytes, s.tail = some bytes ∧
      tokensOf s.items = frameTokens s.guest ∧ s.input.header.length = headerSize ∧
      s.input.header ++ s.wire = bytes) ∧
    ∀ bytes, s.tail = some bytes → s.wire.length + headerSize ≤ bytes.length →
      s.result = some (.error .invalidHeader) := by
  have hd := decodes_of_reachable h
  obtain ⟨-, -, hdel⟩ := streams_of_reachable h
  refine ⟨hd.tokens_le, hd.complete, fun id peer hp => ?_, fun id peer hp => ?_, fun n id hn => ?_, hd.invalid,
    fun bytes ht hread => hd.rejects ht hread⟩
  · rw [hdel.alive id peer hp]
    exact ⟨rfl, hdel.queued id peer hp⟩
  · rw [hdel.retired id peer hp]
    exact ⟨rfl, (hdel.written id peer hp).1⟩
  · rw [hdel.rejected n id hn]

/-! ### A run -/

def someLimits : Limits := { peers := 2, peerBytes := 64, transportBytes := 64, chunks := 4 }

/-- A local socket that is not ready. -/
def idlePeer : PeerReady :=
  { writable := false, readable := false, error := false, hangup := false, connectError := false, write := .retry,
    read := .retry }

/-- A turn in which the transport may be read and the streams are as `ready` says. -/
def readTurn (transport : ReadOutcome) (ready : PeerReady) : Turn :=
  { retries := fun _ => none, resume := ⟨transport, transport, .connected⟩, expired := false, poll := .ready,
    transportReady := true, transport := ⟨transport, transport, .connected⟩, writerBroken := false, writerReady := false,
    write := .retry, peers := fun _ => ready }

/-- An OPEN and a DATA of two bytes, read five and four, and nine and one and one bytes at a time. -/
def piecemealRun : List Event :=
  [.guest (.start 1), .guest (.data 1 [7, 8]), .turn (readTurn (.upTo 5) idlePeer), .turn (readTurn (.upTo 5) idlePeer),
    .turn (readTurn .retry idlePeer), .turn (readTurn (.upTo 9) idlePeer)]

/-- Bytes that are no frame, of a kind there is not, read five and five at a time. -/
def garbageRun : List Event :=
  [.garbage [9, 0, 0, 0, 1, 0, 0, 0, 0, 7], .turn (readTurn (.upTo 5) idlePeer), .turn (readTurn (.upTo 5) idlePeer)]

theorem decoder_carries_streams_run :
    (∃ s, (system someLimits).Reachable s ∧
      (s.peers.get 1).map Peer.accepted = some [7, 8] ∧ tokensOf s.items <+: frameTokens s.guest ∧
      (∀ id peer, s.peers.get id = some peer → peer.accepted = (track peer.serial s.items).received ∧
        peer.accepted = peer.delivered ++ peer.input.pending)) ∧
    ∃ s, (system someLimits).Reachable s ∧ s.wire = [7] ∧ s.result = some (.error .invalidHeader) := by
  have hrun : ((system someLimits).run (system someLimits).init piecemealRun).any
      (fun s => (s.peers.get 1).map Peer.accepted == some [7, 8]) = true := by
    decide
  have hgarbage : ((system someLimits).run (system someLimits).init garbageRun).any
      (fun s => decide (s.tail = some [9, 0, 0, 0, 1, 0, 0, 0, 0, 7] ∧ s.wire = [7])) = true := by
    decide
  obtain ⟨s, hs, hp⟩ := System.exists_reachable hrun
  obtain ⟨u, hu, hq⟩ := System.exists_reachable hgarbage
  obtain ⟨htail, hwire⟩ := of_decide_eq_true hq
  have hall := decoder_carries_streams hs
  refine ⟨⟨s, hs, by simpa using hp, hall.1, hall.2.2.1⟩, u, hu, hwire, ?_⟩
  exact (decoder_carries_streams hu).2.2.2.2.2.2 _ htail (by rw [hwire]; decide)

/-! ## From the streams to the guest -/

/-- The frames queued for the guest carry what was read from each stream, once and in order; a stream that is gone got
its CLOSE from the bridge behind its DATA, unless the guest had closed it by then, and so did a rejected one, in the
next turn that finds room for it unless a retry fails there; what a stream has accepted is delivered when the loop
returns, and every stream whose socket has ended is gone then; a guest that reuses an id only behind the CLOSE of the
bridge never meets a duplicate. -/
theorem bridge_carries_streams (limits : Limits) :
    (∀ s, (system limits).Reachable s →
      s.written ++ s.output.pending = (s.sent.flatMap fun f => f.2.encode) ∧
      (∀ id peer, s.peers.get id = some peer → Carries id peer.taken (framesOf peer.serial s.sent)) ∧
      (∀ id peer, (id, peer) ∈ s.retired → (peer.guestClosed = true ∨ peer.hostEof = true) ∧
        ∃ frames, Carries id peer.taken frames ∧
          framesOf peer.serial s.sent = frames ++ if peer.guestClosed then [] else [.close id]) ∧
      (∀ n id, (n, id) ∈ s.rejected →
        framesOf n s.sent = if s.input.rejectedOpen = true ∧ n = s.opens - 1 then [] else [.close id]) ∧
      (s.result = some (.ok ()) → s.output.pending = [] ∧ s.input.rejectedOpen = false ∧
        (∀ id peer, s.peers.get id = some peer →
          peer.delivered = peer.accepted ∧ peer.hostEof = false ∧ peer.guestClosed = false) ∧
        ∀ id peer, (id, peer) ∈ s.retired → peer.delivered = peer.accepted) ∧
      ∀ turn, s.result = none → s.input.rejectedOpen = true → headerSize ≤ s.output.room →
        (s.iterate limits turn).result = some (.error .ioFailed) ∨
        (s.opens - 1, .close (headerId s.input.header)) ∈ (s.iterate limits turn).sent) ∧
    ∀ s, (system limits).ReachableWhere reusesClosed s → s.result ≠ some (.error .duplicateStream) := by
  refine ⟨fun s h => ?_, fun s h => ?_⟩
  · obtain ⟨hcustody, hsend, hdel⟩ := streams_of_reachable h
    refine ⟨hsend.flow, hsend.alive, fun id peer hp => ⟨(hdel.written id peer hp).2, hsend.retired id peer hp⟩,
      hsend.rejected, fun hr => ?_, fun turn hr hrej hroom => ?_⟩
    · obtain ⟨hout, hrej, halive⟩ := returned h hr
      refine ⟨hout, hrej, fun id peer hp => ?_, fun id peer hp => (hdel.written id peer hp).1.symm⟩
      obtain ⟨hempty, heof, hclosed⟩ := halive id peer hp
      have hq := hdel.queued id peer hp
      rw [hempty, List.append_nil] at hq
      exact ⟨hq.symm, heof, hclosed⟩
    · refine answered_iterate (decodes_of_reachable h) hr ?_ hrej hroom
      rw [← Bool.not_eq_true]
      intro heof
      rw [hcustody.live heof] at hrej
      cases hrej
  · have hr := h.reachable
    exact no_duplicateStream (decodes_of_reachable hr) (balance_of_reachable hr) (ended_of_reachable hr) (started_le h)

/-- The socket ends while a byte for it is queued, and the guest closes the stream before it is written. -/
def closeRaceRun : List Event :=
  [.guest (.start 1), .guest (.data 1 [7]), .turn (readTurn (.upTo 9) idlePeer),
    .turn (readTurn (.upTo 9) { idlePeer with readable := true, read := .eof }), .guest (.close 1),
    .turn (readTurn (.upTo 9) { idlePeer with writable := true, write := .wrote 1 }),
    .turn (readTurn .eof idlePeer), .turn (readTurn .eof idlePeer)]

/-- The guest closes a stream of which a byte is still queued, and opens its id again. -/
def reopenRun : List Event :=
  [.guest (.start 1), .guest (.data 1 [7]), .guest (.close 1), .guest (.start 1), .turn (readTurn (.upTo 9) idlePeer),
    .turn (readTurn (.upTo 9) idlePeer), .turn (readTurn (.upTo 9) idlePeer), .turn (readTurn (.upTo 9) idlePeer)]

/-- Every earlier OPEN of the id has been followed by a CLOSE, of the bridge or of the guest. -/
def reusesExchanged (s : State) : Event → Bool
  | .guest (.start id) => decide (startedCount id s.guest ≤ closedCount id s.sent + s.guest.countP (· == .close id))
  | _ => true

/-- A stream whose socket has ended first goes without a CLOSE, and an id whose CLOSE was exchanged can be a
duplicate. -/
theorem bridge_skips_close :
    (∃ s, (system someLimits).Reachable s ∧ s.result = some (.ok ()) ∧
      ∃ peer, (1, peer) ∈ s.retired ∧ peer.hostEof = true ∧ framesOf peer.serial s.sent = []) ∧
    ∃ s, (system someLimits).ReachableWhere (fun s e => reusesExchanged s e = true) s ∧
      s.result = some (.error .duplicateStream) := by
  have hrace : ((system someLimits).run (system someLimits).init closeRaceRun).any (fun s =>
      decide (s.result = some (.ok ())) && s.sent.isEmpty && s.retired.any fun e => e.1 == 1 && e.2.hostEof) =
        true := by
    decide +kernel
  have hreopen : ((system someLimits).runWhere reusesExchanged (system someLimits).init reopenRun).any (fun s =>
      decide (s.result = some (.error .duplicateStream))) = true := by
    decide +kernel
  obtain ⟨s, hs, hp⟩ := System.exists_reachable hrace
  obtain ⟨u, hu, hq⟩ := System.exists_reachableWhere hreopen
  refine ⟨⟨s, hs, ?_⟩, u, hu, of_decide_eq_true hq⟩
  simp only [Bool.and_eq_true, List.any_eq_true, decide_eq_true_eq, List.isEmpty_iff, beq_iff_eq] at hp
  obtain ⟨⟨hr, hsent⟩, ⟨id, peer⟩, hmem, hid, heof⟩ := hp
  subst hid
  exact ⟨hr, peer, hmem, heof, by rw [hsent]; rfl⟩

/-- The socket of a stream ends, and the guest opens the id again behind the CLOSE of the bridge. -/
def reuseRun : List Event :=
  [.guest (.start 1), .turn (readTurn (.upTo 9) idlePeer),
    .turn (readTurn .retry { idlePeer with readable := true, read := .eof }), .turn (readTurn .retry idlePeer),
    .guest (.start 1), .turn (readTurn (.upTo 9) idlePeer)]

theorem bridge_carries_streams_run :
    (∃ s, (system someLimits).Reachable s ∧ s.result = some (.ok ()) ∧ s.output.pending = [] ∧
      ∀ id peer, (id, peer) ∈ s.retired → peer.delivered = peer.accepted) ∧
    ∃ s, (system someLimits).ReachableWhere reusesClosed s ∧ s.opens = 2 ∧
      s.result ≠ some (.error .duplicateStream) := by
  have hrun : ((system someLimits).run (system someLimits).init closeRaceRun).any (fun s =>
      decide (s.result = some (.ok ()))) = true := by
    decide +kernel
  let check : State → Event → Bool := fun s e =>
    match e with
    | .guest (.start id) => decide (startedCount id s.guest = closedCount id s.sent)
    | _ => true
  have hreuse : ((system someLimits).runWhere check (system someLimits).init reuseRun).any (fun s =>
      decide (s.opens = 2)) = true := by
    decide +kernel
  have hcheck : ∀ s e, check s e = true → reusesClosed s e := by
    intro s e he
    match e with
    | .guest (.start id) =>
      show startedCount id s.guest = closedCount id s.sent
      have heq : decide (startedCount id s.guest = closedCount id s.sent) = true := he
      exact of_decide_eq_true heq
    | .guest (.data _ _) | .guest (.close _) | .garbage _ | .turn _ => exact trivial
  obtain ⟨s, hs, hp⟩ := System.exists_reachable hrun
  obtain ⟨u, hu, hq⟩ := System.exists_reachableWhere hreuse
  have hr : s.result = some (.ok ()) := of_decide_eq_true hp
  have hall := ((bridge_carries_streams someLimits).1 s hs).2.2.2.2.1 hr
  refine ⟨⟨s, hs, hr, hall.1, hall.2.2.2⟩, u, hu.mono hcheck, of_decide_eq_true hq, ?_⟩
  exact (bridge_carries_streams someLimits).2 u (hu.mono hcheck)

end CocoaWay.Relay
