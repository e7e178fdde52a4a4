import CocoaWay.Relay.Streams

/-!
# What the streams receive

* `Track`, `track` : the stream with a number as the items tell it: the id it is open under and the bytes it has
  received;
* `Delivery` : the streams of the bridge hold what `track` says, and have written it but for what is queued;
* `Balance` : the OPENs of an id against its CLOSEs;
* `Ended` : the states in which the loop returns.
-/

namespace CocoaWay.Relay
open Lib

variable {s s' t : State} {limits : Limits} {id id' : UInt32} {peer peer' : Peer} {n : Nat}

/-! ## The streams in the items -/

/-- A stream: the OPENs so far, the id under which it is open, and the bytes addressed to it while it was. -/
structure Track where
  opens : Nat
  current : Option UInt32
  received : Bytes

/-- What an item does to the stream with the number `n`. -/
def Track.item (n : Nat) (t : Track) : Item → Track
  | .opened id => { t with opens := t.opens + 1, current := if t.opens = n then some id else t.current }
  | .rejected _ => { t with opens := t.opens + 1 }
  | .dataHeader _ _ => t
  | .byte id b => if t.current = some id then { t with received := t.received ++ [b] } else t
  | .closed id | .retired id => if t.current = some id then { t with current := none } else t

/-- The stream with the number `n`. -/
def track (n : Nat) (items : List Item) : Track := items.foldl (Track.item n) ⟨0, none, []⟩

theorem track_append (n : Nat) (items : List Item) (item : Item) :
    track n (items ++ [item]) = (track n items).item n item := by
  unfold track
  rw [List.foldl_append]
  rfl

variable {items : List Item}

theorem track_bytes_self (h : (track n items).current = some id) (bytes : Bytes) :
    track n (items ++ bytes.map (Item.byte id)) =
      { track n items with received := (track n items).received ++ bytes } := by
  induction bytes generalizing items with
  | nil => simp
  | cons b bytes ih =>
    have hone : track n (items ++ [.byte id b]) =
      { track n items with received := (track n items).received ++ [b] } := by
      rw [track_append]
      exact if_pos h
    have hcur : (track n (items ++ [.byte id b])).current = some id := by
      rw [hone]
      exact h
    rw [List.map_cons, List.append_cons, ih hcur, hone]
    simp

theorem track_bytes_of_ne (h : (track n items).current ≠ some id) (bytes : Bytes) :
    track n (items ++ bytes.map (Item.byte id)) = track n items := by
  induction bytes generalizing items with
  | nil => simp
  | cons b bytes ih =>
    have hone : track n (items ++ [.byte id b]) = track n items := by
      rw [track_append]
      exact if_neg h
    have hcur : (track n (items ++ [.byte id b])).current ≠ some id := by
      rw [hone]
      exact h
    rw [List.map_cons, List.append_cons, ih hcur, hone]

/-! ## Delivery -/

/-- The stream `peer` under `id`, as the items tell it. -/
def Peer.track (opens : Nat) (id : UInt32) (peer : Peer) : Track :=
  ⟨opens, if peer.guestClosed then none else some id, peer.accepted⟩

structure Delivery (s : State) : Prop where
  alive : ∀ id peer, s.peers.get id = some peer → track peer.serial s.items = peer.track s.opens id
  retired : ∀ id peer, (id, peer) ∈ s.retired → track peer.serial s.items = ⟨s.opens, none, peer.accepted⟩
  rejected : ∀ n id, (n, id) ∈ s.rejected → track n s.items = ⟨s.opens, none, []⟩
  fresh : ∀ n, s.opens ≤ n → track n s.items = ⟨s.opens, none, []⟩
  queued : ∀ id peer, s.peers.get id = some peer → peer.accepted = peer.delivered ++ peer.input.pending
  written : ∀ id peer, (id, peer) ∈ s.retired →
    peer.accepted = peer.delivered ∧ (peer.guestClosed = true ∨ peer.hostEof = true)

theorem delivery_new (limits : Limits) : Delivery (.new limits) :=
  ⟨nofun, nofun, nofun, fun _ _ => rfl, nofun, nofun⟩

/-- A stream is changed in what the items do not tell. -/
theorem Delivery.setPeer (hd : Delivery s) (h : s.peers.get id = some peer) (hn : peer'.serial = peer.serial)
    (ht : peer'.track s.opens id = peer.track s.opens id)
    (hq : peer'.accepted = peer'.delivered ++ peer'.input.pending) : Delivery (s.setPeer id peer') := by
  refine ⟨fun i p hp => ?_, hd.retired, hd.rejected, hd.fresh, fun i p hp => ?_, hd.written⟩
  · have hget : (s.peers.set id peer').get i = some p := hp
    rw [Table.get_set] at hget
    split at hget
    next hi =>
      cases hget
      subst hi
      rw [hn]
      exact (hd.alive i peer h).trans ht.symm
    · exact hd.alive i p hget
  · have hget : (s.peers.set id peer').get i = some p := hp
    rw [Table.get_set] at hget
    split at hget
    · cases hget
      exact hq
    · exact hd.queued i p hget

theorem Peer.track_of_ne (hne : id' ≠ id) (peer : Peer) (n : Nat) : (peer.track n id').current ≠ some id := by
  unfold Peer.track
  split
  · exact nofun
  · exact fun he => hne (Option.some.inj he)

/-- The items added concern at most the stream that is open under the id. -/
def Touches (id : UInt32) (items added : List Item) : Prop :=
  ∀ n, (track n items).current ≠ some id → track n (items ++ added) = track n items

theorem touches_bytes (id : UInt32) (items : List Item) (bytes : Bytes) :
    Touches id items (bytes.map (Item.byte id)) :=
  fun _ h => track_bytes_of_ne h bytes

theorem touches_closed (id : UInt32) (items : List Item) : Touches id items [.closed id] := by
  intro n h
  rw [track_append]
  exact if_neg h

theorem touches_retired (id : UInt32) (items : List Item) : Touches id items [.retired id] := by
  intro n h
  rw [track_append]
  exact if_neg h

/-- Items are added and the stream under their id follows; the others stay. -/
theorem Delivery.append (hd : Delivery s) {added : List Item} {peers : Table UInt32 Peer}
    (ht : Touches id s.items added) (hother : ∀ i, i ≠ id → peers.get i = s.peers.get i)
    (hself : ∀ p, peers.get id = some p → track p.serial (s.items ++ added) = p.track s.opens id ∧
      p.accepted = p.delivered ++ p.input.pending) :
    Delivery { s with peers := peers, items := s.items ++ added } := by
  have hsame : ∀ n t, track n s.items = t → t.current ≠ some id → track n (s.items ++ added) = t := by
    intro n t h hne
    rw [ht n (by rw [h]; exact hne), h]
  refine ⟨fun i p hp => ?_, fun i p hp => ?_, fun n i hn => ?_, fun n hn => ?_, fun i p hp => ?_, hd.written⟩
  · by_cases hi : i = id
    · subst hi
      exact (hself p hp).1
    · exact hsame _ _ (hd.alive i p ((hother i hi).symm.trans hp)) (Peer.track_of_ne hi p s.opens)
  · exact hsame _ _ (hd.retired i p hp) nofun
  · exact hsame _ _ (hd.rejected n i hn) nofun
  · exact hsame _ _ (hd.fresh n hn) nofun
  · by_cases hi : i = id
    · subst hi
      exact (hself p hp).2
    · exact hd.queued i p ((hother i hi).symm.trans hp)

/-- The stream under the id is closed or gone. -/
theorem Delivery.track_shut (hd : Delivery s) (h : s.peers.get id = some peer) {item : Item}
    (hi : item = .closed id ∨ item = .retired id) :
    track peer.serial (s.items ++ [item]) = ⟨s.opens, none, peer.accepted⟩ := by
  have hshut : ∀ t : Track, t.item peer.serial item = if t.current =
    some id then { t with current := none } else t := by
    intro t
    rcases hi with rfl | rfl <;> rfl
  rw [track_append, hd.alive id peer h, hshut]
  unfold Peer.track
  by_cases hc : peer.guestClosed = true
  · rw [if_pos hc]
    rfl
  · rw [if_neg hc]
    exact if_pos rfl

/-- A stream without anything left to write leaves the bridge. -/
theorem Delivery.gone (hd : Delivery s) (h : s.peers.get id = some peer) (hempty : peer.input.isEmpty = true)
    (hended : peer.guestClosed = true ∨ peer.hostEof = true) : Delivery (s.gone id peer) := by
  have hrest : Delivery { s with peers := s.peers.remove id, items := s.items ++ [.retired id] } := by
    refine hd.append (touches_retired id s.items) (fun i hi => Table.get_remove_of_ne _ hi) fun p hp => ?_
    rw [Table.get_remove_self] at hp
    cases hp
  refine ⟨hrest.alive, fun i p hp => ?_, hrest.rejected, hrest.fresh, hrest.queued, fun i p hp => ?_⟩
  · rcases List.mem_append.1 hp with hp | hp
    · exact hrest.retired i p hp
    · cases List.mem_singleton.1 hp
      exact hd.track_shut h (Or.inr rfl)
  · rcases List.mem_append.1 hp with hp | hp
    · exact hd.written i p hp
    · cases List.mem_singleton.1 hp
      refine ⟨?_, hended⟩
      have := hd.queued id peer h
      rw [Queue.isEmpty_iff.1 hempty, List.append_nil] at this
      exact this

/-- An OPEN leaves the streams before it as they are. -/
theorem track_open_of_lt {t : Track} {item : Item} (h : track n items = t) (hn : n < t.opens)
    (hi : item = .opened id ∨ item = .rejected id) : track n (items ++ [item]) = { t with opens := t.opens + 1 } := by
  rw [track_append, h]
  rcases hi with rfl | rfl
  · unfold Track.item
    dsimp only
    rw [if_neg (by omega)]
  · rfl

theorem Delivery.opened (hc : Custody s) (hd : Delivery s) (hnone : s.peers.get id = none)
    (hp : peer = { peer with guestClosed := false, serial := s.opens, accepted := [], delivered := [] })
    (hq : peer.input.pending = []) :
    Delivery { s with peers := s.peers.set id peer, opens := s.opens + 1, items := s.items ++ [.opened id] } := by
  have hlt : ∀ n t, track n s.items = t → n < s.opens → t.opens = s.opens →
      track n (s.items ++ [.opened id]) = { t with opens := t.opens + 1 } :=
    fun n t h hn ho => track_open_of_lt h (by omega) (Or.inl rfl)
  refine ⟨fun i p hget => ?_, fun i p hp => ?_, fun n i hn => ?_, fun n hn => ?_, fun i p hget => ?_, hd.written⟩
  · dsimp only at hget
    rw [Table.get_set] at hget
    split at hget
    next hi =>
      cases hget
      subst hi
      rw [hp]
      show track s.opens (s.items ++ [.opened i]) = ⟨s.opens + 1, some i, []⟩
      rw [track_append, hd.fresh s.opens (Nat.le_refl _)]
      unfold Track.item
      dsimp only
      rw [if_pos rfl]
    · exact hlt _ _ (hd.alive i p hget) (hc.lt_of_mem (Custody.alive_mem hget)) rfl
  · exact hlt _ _ (hd.retired i p hp) (hc.lt_of_mem (Custody.retired_mem hp)) rfl
  · exact hlt _ _ (hd.rejected n i hn) (hc.lt_of_mem (Custody.rejected_mem hn)) rfl
  · have hn' : s.opens < n := hn
    show track n (s.items ++ [.opened id]) = ⟨s.opens + 1, none, []⟩
    rw [track_append, hd.fresh n (by omega)]
    unfold Track.item
    dsimp only
    rw [if_neg (by omega)]
  · dsimp only at hget
    rw [Table.get_set] at hget
    split at hget
    · cases hget
      rw [hq, hp]
      rfl
    · exact hd.queued i p hget

theorem Delivery.rejectedOpen (hc : Custody s) (hd : Delivery s) (id : UInt32) {input : Input} :
    Delivery { s with
      input := input
      opens := s.opens + 1
      rejected := s.rejected ++ [(s.opens, id)]
      items := s.items ++ [.rejected id] } := by
  have hlt : ∀ n t, track n s.items = t → n < s.opens → t.opens = s.opens →
      track n (s.items ++ [.rejected id]) = { t with opens := t.opens + 1 } :=
    fun n t h hn ho => track_open_of_lt h (by omega) (Or.inr rfl)
  have hnew : ∀ n, s.opens ≤ n → track n (s.items ++ [.rejected id]) = ⟨s.opens + 1, none, []⟩ := by
    intro n hn
    rw [track_append, hd.fresh n hn]
    rfl
  refine ⟨fun i p hp => ?_, fun i p hp => ?_, fun n i hn => ?_, fun n hn => ?_, hd.queued, hd.written⟩
  · exact hlt _ _ (hd.alive i p hp) (hc.lt_of_mem (Custody.alive_mem hp)) rfl
  · exact hlt _ _ (hd.retired i p hp) (hc.lt_of_mem (Custody.retired_mem hp)) rfl
  · rcases List.mem_append.1 hn with hn | hn
    · exact hlt _ _ (hd.rejected n i hn) (hc.lt_of_mem (Custody.rejected_mem hn)) rfl
    · cases List.mem_singleton.1 hn
      exact hnew _ (Nat.le_refl _)
  · exact hnew n (Nat.le_of_succ_le hn)

theorem Delivery.move (hc : Custody s) (hd : Delivery s) (h : Move limits s s') : Delivery s' := by
  rcases h with ⟨h, hr⟩ | ⟨h, hr⟩
  · cases h with
    | connection id peer h connecting retrying => exact hd.setPeer h rfl rfl (hd.queued id peer h)
    | deliver id peer n input bytes h hwrite =>
      refine hd.setPeer h rfl rfl ?_
      show peer.accepted = peer.delivered ++ bytes ++ input.pending
      rw [hd.queued id peer h, Queue.pending_write hwrite, List.append_assoc]
    | hostEof id peer h => exact hd.setPeer h rfl rfl (hd.queued id peer h)
    | take id peer bytes output h hpush =>
      have hq : Delivery (s.queued peer.serial (.data id bytes) output) :=
        ⟨hd.alive, hd.retired, hd.rejected, hd.fresh, hd.queued, hd.written⟩
      exact hq.setPeer h rfl rfl (hd.queued id peer h)
    | retire id peer h hempty hclosed => exact hd.gone h hempty (Or.inl hclosed)
    | close id peer output h hempty hopen heof hpush =>
      have hq : Delivery (s.queued peer.serial (.close id) output) :=
        ⟨hd.alive, hd.retired, hd.rejected, hd.fresh, hd.queued, hd.written⟩
      exact hq.gone h hempty (Or.inr heof)
    | _ => exact ⟨hd.alive, hd.retired, hd.rejected, hd.fresh, hd.queued, hd.written⟩
  · cases h with
    | dataHeader id length =>
      have hsame : Touches id s.items [.dataHeader id length] := fun n _ => track_append _ _ _
      refine hd.append hsame (fun _ _ => rfl) fun p hp => ⟨?_, hd.queued id p hp⟩
      rw [track_append]
      exact hd.alive id p hp
    | drop id bytes h =>
      refine hd.append (touches_bytes id s.items bytes) (fun _ _ => rfl) fun p hp => ⟨?_, hd.queued id p hp⟩
      have ht := hd.alive id p hp
      rw [track_bytes_of_ne, ht]
      rw [ht, Peer.track, if_pos (h p hp)]
      exact nofun
    | closedUnknown id h =>
      refine hd.append (touches_closed id s.items) (fun _ _ => rfl) fun p hp => ?_
      rw [h] at hp
      cases hp
    | closed id peer h =>
      refine hd.append (touches_closed id s.items) (fun i hi => Table.get_set_of_ne _ _ hi) fun p hp => ?_
      rw [Table.get_set_self] at hp
      cases hp
      exact ⟨hd.track_shut h (Or.inl rfl), hd.queued id peer h⟩
    | accept id peer bytes input h hopen hpush =>
      refine hd.append (touches_bytes id s.items bytes) (fun i hi => Table.get_set_of_ne _ _ hi) fun p hp => ?_
      rw [Table.get_set_self] at hp
      cases hp
      have ht := hd.alive id peer h
      have hcur : (track peer.serial s.items).current = some id := by
        rw [ht, Peer.track, hopen]
        rfl
      refine ⟨?_, ?_⟩
      · show track peer.serial (s.items ++ bytes.map (Item.byte id)) = _
        rw [track_bytes_self hcur, ht]
        rfl
      · show peer.accepted ++ bytes = peer.delivered ++ input.pending
        rw [Queue.pending_push hpush, hd.queued id peer h, List.append_assoc]
    | opened id connecting retrying h hrej => exact hd.opened hc h rfl rfl
    | rejected h hlive => exact hd.rejectedOpen hc (headerId s.input.header)
    | _ => exact ⟨hd.alive, hd.retired, hd.rejected, hd.fresh, hd.queued, hd.written⟩

end CocoaWay.Relay
