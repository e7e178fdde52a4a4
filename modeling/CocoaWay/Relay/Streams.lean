import Mathlib.Data.List.Nodup
import Mathlib.Data.List.Perm.Basic
import CocoaWay.Relay.Moves

/-!
# The streams of the bridge

* `Custody` : every OPEN the decoder has seen has a number, and belongs to one stream: open, retired or rejected;
* `Sending` : the frames queued under a number are the bytes read from its socket, then at most one CLOSE;
* `Delivery` : what a stream has accepted is what the items say, and is written or still queued;
* `Balance` : the OPENs of an id against its CLOSEs.
-/

namespace CocoaWay.Relay
open Lib

variable {s s' t : State} {limits : Limits} {id id' : UInt32} {peer peer' : Peer} {n : Nat}

/-! ## Custody -/

/-- The numbers of the streams. -/
def State.serials (s : State) : List Nat :=
  s.peers.values.map Peer.serial ++ s.retired.map (fun e => e.2.serial) ++ s.rejected.map Prod.fst

structure Custody (s : State) : Prop where
  perm : s.serials.Perm (List.range s.opens)
  /-- The rejected OPEN that waits for its CLOSE is the last one. -/
  waiting : s.input.rejectedOpen = true → 0 < s.opens ∧ (s.opens - 1, headerId s.input.header) ∈ s.rejected
  live : s.transportEof = true → s.input.rejectedOpen = false

theorem values_serial_set (h : s.peers.get id = some peer) (hs : peer'.serial = peer.serial) :
    ((s.peers.set id peer').values.map Peer.serial).Perm (s.peers.values.map Peer.serial) := by
  rw [Table.values_set, List.map_cons, hs]
  exact ((Table.values_perm_remove h).map Peer.serial).symm

theorem values_serial_remove (h : s.peers.get id = some peer) :
    (s.peers.values.map Peer.serial).Perm (peer.serial :: (s.peers.remove id).values.map Peer.serial) :=
  (Table.values_perm_remove h).map Peer.serial

theorem serials_gone (h : s.peers.get id = some peer) : (s.gone id peer).serials.Perm s.serials := by
  unfold State.serials State.gone
  dsimp only
  rw [List.map_append, List.map_singleton, ← List.append_assoc]
  refine List.Perm.append_right _ ?_
  refine (List.perm_append_singleton peer.serial _).trans ?_
  rw [← List.cons_append]
  exact List.Perm.append_right _ (values_serial_remove h).symm

namespace Custody

theorem nodup (hc : Custody s) : s.serials.Nodup := hc.perm.nodup_iff.2 List.nodup_range

theorem lt_of_mem (hc : Custody s) (h : n ∈ s.serials) : n < s.opens := List.mem_range.1 (hc.perm.mem_iff.1 h)

theorem alive_mem (h : s.peers.get id = some peer) : peer.serial ∈ s.serials := by
  unfold State.serials
  refine List.mem_append_left _ (List.mem_append_left _ (List.mem_map_of_mem ?_))
  exact Table.mem_values_iff.2 ⟨id, h⟩

theorem retired_mem (h : (id, peer) ∈ s.retired) : peer.serial ∈ s.serials := by
  unfold State.serials
  exact List.mem_append_left _ (List.mem_append_right _ (List.mem_map.2 ⟨_, h, rfl⟩))

theorem rejected_mem (h : (n, id) ∈ s.rejected) : n ∈ s.serials := by
  unfold State.serials
  exact List.mem_append_right _ (List.mem_map.2 ⟨_, h, rfl⟩)

theorem alive_inj (hc : Custody s) (h : s.peers.get id = some peer) (h' : s.peers.get id' = some peer')
    (hs : peer'.serial = peer.serial) : id' = id := by
  by_contra hne
  have hnd : (s.peers.values.map Peer.serial).Nodup :=
    (List.nodup_append.1 (List.nodup_append.1 hc.nodup).1).1
  have hrem : (s.peers.remove id).get id' = some peer' := by rw [Table.get_remove_of_ne _ hne, h']
  have hmem : peer'.serial ∈ (s.peers.remove id).values.map Peer.serial :=
    List.mem_map_of_mem (Table.mem_values_iff.2 ⟨id', hrem⟩)
  have := (values_serial_remove h).nodup_iff.1 hnd
  rw [← hs] at this
  exact (List.nodup_cons.1 this).1 hmem

theorem alive_ne_retired (hc : Custody s) (h : s.peers.get id = some peer) (h' : (id', peer') ∈ s.retired) :
    peer'.serial ≠ peer.serial := by
  have hnd := (List.nodup_append.1 hc.nodup).1
  have hmem : peer.serial ∈ s.peers.values.map Peer.serial := List.mem_map_of_mem (Table.mem_values_iff.2 ⟨id, h⟩)
  exact ((List.nodup_append.1 hnd).2.2 _ hmem _ (List.mem_map.2 ⟨_, h', rfl⟩)).symm

theorem alive_ne_rejected (hc : Custody s) (h : s.peers.get id = some peer) (h' : (n, id') ∈ s.rejected) :
    n ≠ peer.serial := by
  have hmem : peer.serial ∈ s.peers.values.map Peer.serial := List.mem_map_of_mem (Table.mem_values_iff.2 ⟨id, h⟩)
  exact ((List.nodup_append.1 hc.nodup).2.2 _ (List.mem_append_left _ hmem) _ (List.mem_map.2 ⟨_, h', rfl⟩)).symm

theorem retired_ne_rejected (hc : Custody s) (h : (id, peer) ∈ s.retired) (h' : (n, id') ∈ s.rejected) :
    n ≠ peer.serial := by
  have hmem : peer.serial ∈ s.retired.map fun e => e.2.serial := List.mem_map.2 ⟨_, h, rfl⟩
  exact ((List.nodup_append.1 hc.nodup).2.2 _ (List.mem_append_right _ hmem) _ (List.mem_map.2 ⟨_, h', rfl⟩)).symm

theorem rejected_inj (hc : Custody s) (h : (n, id) ∈ s.rejected) (h' : (n, id') ∈ s.rejected) : id' = id := by
  have hnd := (List.nodup_append.1 hc.nodup).2.1
  have := List.inj_on_of_nodup_map hnd h' h rfl
  exact congrArg Prod.snd this

end Custody

theorem custody_new (limits : Limits) : Custody (.new limits) :=
  ⟨List.Perm.refl [], nofun, nofun⟩

theorem Custody.setPeer (hc : Custody s) (h : s.peers.get id = some peer) (hs : peer'.serial = peer.serial) :
    Custody (s.setPeer id peer') := by
  refine ⟨List.Perm.trans ?_ hc.perm, hc.waiting, hc.live⟩
  exact List.Perm.append_right _ (List.Perm.append_right _ (values_serial_set h hs))

theorem Custody.move (hc : Custody s) (h : Move limits s s') : Custody s' := by
  rcases h with ⟨h, hr⟩ | ⟨h, hr⟩
  · cases h with
    | fail e h => exact ⟨hc.perm, hc.waiting, hc.live⟩
    | finish heof hdrained hretired => exact ⟨hc.perm, hc.waiting, hc.live⟩
    | rotate n => exact ⟨hc.perm, hc.waiting, hc.live⟩
    | writeOutput n output bytes h => exact ⟨hc.perm, hc.waiting, hc.live⟩
    | connection id peer h connecting retrying => exact hc.setPeer h rfl
    | deliver id peer n input bytes h hwrite => exact hc.setPeer h rfl
    | hostEof id peer h => exact hc.setPeer h rfl
    | take id peer bytes output h hpush =>
      have hq : Custody (s.queued peer.serial (.data id bytes) output) := ⟨hc.perm, hc.waiting, hc.live⟩
      exact hq.setPeer h rfl
    | retire id peer h hempty hclosed => exact ⟨(serials_gone h).trans hc.perm, hc.waiting, hc.live⟩
    | close id peer output h hempty hopen heof hpush =>
      have hq : Custody (s.queued peer.serial (.close id) output) := ⟨hc.perm, hc.waiting, hc.live⟩
      exact ⟨(serials_gone h).trans hq.perm, hq.waiting, hq.live⟩
  · cases h with
    | scan input wire todo eof hrejected hheader heof =>
      refine ⟨hc.perm, fun h => ?_, fun h => ?_⟩
      · have hrej : s.input.rejectedOpen = true := hrejected.symm.trans h
        show 0 < s.opens ∧ (s.opens - 1, headerId input.header) ∈ s.rejected
        rw [hheader hrej]
        exact hc.waiting hrej
      · exact hrejected.trans ((heof h).elim hc.live fun h => h)
    | fail e h => exact ⟨hc.perm, hc.waiting, hc.live⟩
    | duplicate h => exact ⟨hc.perm, hc.waiting, hc.live⟩
    | dataHeader id length => exact ⟨hc.perm, hc.waiting, hc.live⟩
    | drop id bytes h => exact ⟨hc.perm, hc.waiting, hc.live⟩
    | closedUnknown id h => exact ⟨hc.perm, hc.waiting, hc.live⟩
    | closed id peer h =>
      have hset : Custody (s.setPeer id { peer with guestClosed := true }) := hc.setPeer h rfl
      exact ⟨hset.perm, hc.waiting, hc.live⟩
    | accept id peer bytes input h hopen hpush =>
      have hset : Custody (s.setPeer id { peer with input := input, accepted := peer.accepted ++ bytes }) :=
        hc.setPeer h rfl
      exact ⟨hset.perm, hc.waiting, hc.live⟩
    | answer output h hpush => exact ⟨hc.perm, nofun, fun _ => rfl⟩
    | opened id connecting retrying h hrej =>
      refine ⟨?_, fun h => ?_, hc.live⟩
      · unfold State.serials
        dsimp only
        rw [Table.values_set_of_none h, List.map_cons, List.cons_append, List.cons_append, List.range_succ]
        exact (List.perm_append_singleton _ _).symm.trans (List.Perm.append_right _ hc.perm)
      · rw [hrej] at h
        cases h
    | rejected h hlive =>
      refine ⟨?_, fun _ => ⟨Nat.succ_pos _, ?_⟩, fun h => ?_⟩
      · unfold State.serials
        dsimp only
        rw [List.map_append, List.map_singleton, ← List.append_assoc, List.range_succ]
        exact List.Perm.append_right _ hc.perm
      · show (s.opens + 1 - 1, headerId s.input.header) ∈ s.rejected ++ [(s.opens, headerId s.input.header)]
        rw [Nat.add_sub_cancel]
        exact List.mem_append_right _ (List.mem_singleton_self _)
      · rw [hlive] at h
        cases h

/-! ## Sending -/

/-- The frames queued under a number. -/
def framesOf (n : Nat) (sent : List (Nat × Frame)) : List Frame := (sent.filter fun f => decide (f.1 = n)).map Prod.snd

/-- DATA frames of the stream, with the bytes `taken` in order. -/
def Carries (id : UInt32) (taken : Bytes) (frames : List Frame) : Prop :=
  ∃ chunks : List Bytes, frames = chunks.map (.data id) ∧ chunks.flatten = taken

structure Sending (s : State) : Prop where
  flow : s.written ++ s.output.pending = s.sent.flatMap fun f => f.2.encode
  numbered : ∀ f ∈ s.sent, f.1 < s.opens
  alive : ∀ id peer, s.peers.get id = some peer → Carries id peer.taken (framesOf peer.serial s.sent)
  retired : ∀ id peer, (id, peer) ∈ s.retired → ∃ frames, Carries id peer.taken frames ∧
    framesOf peer.serial s.sent = frames ++ if peer.guestClosed then [] else [.close id]
  rejected : ∀ n id, (n, id) ∈ s.rejected →
    framesOf n s.sent = if s.input.rejectedOpen = true ∧ n = s.opens - 1 then [] else [.close id]

theorem framesOf_append (n : Nat) (l l' : List (Nat × Frame)) :
    framesOf n (l ++ l') = framesOf n l ++ framesOf n l' := by
  unfold framesOf
  rw [List.filter_append, List.map_append]

theorem framesOf_queued_self (s : State) (n : Nat) (frame : Frame) (output : Queue) :
    framesOf n (s.queued n frame output).sent = framesOf n s.sent ++ [frame] := by
  unfold State.queued
  rw [framesOf_append]
  simp [framesOf]

theorem framesOf_queued_of_ne (s : State) {m : Nat} (h : n ≠ m) (frame : Frame) (output : Queue) :
    framesOf n (s.queued m frame output).sent = framesOf n s.sent := by
  unfold State.queued
  rw [framesOf_append]
  simp [framesOf, h.symm]

theorem framesOf_eq_nil {sent : List (Nat × Frame)} (h : ∀ f ∈ sent, f.1 < n) : framesOf n sent = [] := by
  unfold framesOf
  rw [List.map_eq_nil_iff, List.filter_eq_nil_iff]
  intro f hf
  have := h f hf
  rw [decide_eq_true_eq]
  omega

theorem sending_new (limits : Limits) : Sending (.new limits) :=
  ⟨rfl, nofun, nofun, nofun, nofun⟩

theorem Sending.flow_queued (hs : Sending s) {frame : Frame} {output : Queue} {m : Nat}
    (hpush : s.output.push frame.encode = some output) :
    s.written ++ output.pending = (s.queued m frame output).sent.flatMap fun f => f.2.encode := by
  unfold State.queued
  rw [Queue.pending_push hpush, ← List.append_assoc, hs.flow, List.flatMap_append, List.flatMap_singleton]

theorem Sending.numbered_queued (hs : Sending s) {frame : Frame} (output : Queue) {m : Nat} (hm : m < s.opens) :
    ∀ f ∈ (s.queued m frame output).sent, f.1 < s.opens := by
  intro f hf
  rcases List.mem_append.1 hf with h | h
  · exact hs.numbered f h
  · obtain rfl := List.mem_singleton.1 h
    exact hm

/-- A stream is changed in what the frames do not tell. -/
theorem Sending.setPeer (hs : Sending s) (h : s.peers.get id = some peer) (hn : peer'.serial = peer.serial)
    (ht : peer'.taken = peer.taken) : Sending (s.setPeer id peer') := by
  refine ⟨hs.flow, hs.numbered, fun i p hp => ?_, hs.retired, hs.rejected⟩
  have hget : (s.peers.set id peer').get i = some p := hp
  rw [Table.get_set] at hget
  split at hget
  next hi =>
    cases hget
    rw [hi, hn, ht]
    exact hs.alive id peer h
  · exact hs.alive i p hget

theorem Sending.move (hc : Custody s) (hs : Sending s) (h : Move limits s s') : Sending s' := by
  rcases h with ⟨h, hr⟩ | ⟨h, hr⟩
  · cases h with
    | fail e h => exact ⟨hs.flow, hs.numbered, hs.alive, hs.retired, hs.rejected⟩
    | finish heof hdrained hretired => exact ⟨hs.flow, hs.numbered, hs.alive, hs.retired, hs.rejected⟩
    | rotate n => exact ⟨hs.flow, hs.numbered, hs.alive, hs.retired, hs.rejected⟩
    | connection id peer h connecting retrying => exact hs.setPeer h rfl rfl
    | deliver id peer n input bytes h hwrite => exact hs.setPeer h rfl rfl
    | hostEof id peer h => exact hs.setPeer h rfl rfl
    | writeOutput n output bytes h =>
      refine ⟨?_, hs.numbered, hs.alive, hs.retired, hs.rejected⟩
      show s.written ++ bytes ++ output.pending = _
      rw [List.append_assoc, ← Queue.pending_write h]
      exact hs.flow
    | retire id peer h hempty hclosed =>
      refine ⟨hs.flow, hs.numbered, fun i p hp => ?_, fun i p hp => ?_, hs.rejected⟩
      · have hget : (s.peers.remove id).get i = some p := hp
        rw [Table.get_remove] at hget
        split at hget
        · cases hget
        · exact hs.alive i p hget
      · rcases List.mem_append.1 hp with hp | hp
        · exact hs.retired i p hp
        · cases List.mem_singleton.1 hp
          refine ⟨_, hs.alive id peer h, ?_⟩
          rw [if_pos hclosed, List.append_nil]
          rfl
    | close id peer output h hempty hopen heof hpush =>
      have hlt : peer.serial < s.opens := hc.lt_of_mem (Custody.alive_mem h)
      refine ⟨hs.flow_queued hpush, hs.numbered_queued output hlt, fun i p hp => ?_, fun i p hp => ?_, fun n i hn => ?_⟩
      · have hget : (s.peers.remove id).get i = some p := hp
        rw [Table.get_remove] at hget
        split at hget
        · cases hget
        next hne =>
          have hser : p.serial ≠ peer.serial := fun he => hne (hc.alive_inj h hget he)
          show Carries i p.taken (framesOf p.serial (s.queued peer.serial (.close id) output).sent)
          rw [framesOf_queued_of_ne s hser]
          exact hs.alive i p hget
      · show ∃ frames, Carries i p.taken frames ∧
          framesOf p.serial (s.queued peer.serial (.close id) output).sent = _
        rcases List.mem_append.1 hp with hp | hp
        · rw [framesOf_queued_of_ne s (hc.alive_ne_retired h hp)]
          exact hs.retired i p hp
        · cases List.mem_singleton.1 hp
          refine ⟨_, hs.alive id peer h, ?_⟩
          rw [framesOf_queued_self, hopen]
          rfl
      · show framesOf n (s.queued peer.serial (.close id) output).sent = _
        rw [framesOf_queued_of_ne s (hc.alive_ne_rejected h hn)]
        exact hs.rejected n i hn
    | take id peer bytes output h hpush =>
      have hlt : peer.serial < s.opens := hc.lt_of_mem (Custody.alive_mem h)
      refine ⟨hs.flow_queued hpush, hs.numbered_queued output hlt, fun i p hp => ?_, fun i p hp => ?_, fun n i hn => ?_⟩
      · have hget : (s.peers.set id { peer with taken := peer.taken ++ bytes }).get i = some p := hp
        rw [Table.get_set] at hget
        show Carries i p.taken (framesOf p.serial (s.queued peer.serial (.data id bytes) output).sent)
        split at hget
        next hi =>
          cases hget
          subst hi
          obtain ⟨chunks, hchunks, htaken⟩ := hs.alive i peer h
          refine ⟨chunks ++ [bytes], ?_, ?_⟩
          · rw [framesOf_queued_self, hchunks, List.map_append, List.map_singleton]
          · rw [List.flatten_append, htaken]
            simp
        next hne =>
          have hser : p.serial ≠ peer.serial := fun he => hne (hc.alive_inj h hget he)
          rw [framesOf_queued_of_ne s hser]
          exact hs.alive i p hget
      · show ∃ frames, Carries i p.taken frames ∧
          framesOf p.serial (s.queued peer.serial (.data id bytes) output).sent = _
        rw [framesOf_queued_of_ne s (hc.alive_ne_retired h hp)]
        exact hs.retired i p hp
      · show framesOf n (s.queued peer.serial (.data id bytes) output).sent = _
        rw [framesOf_queued_of_ne s (hc.alive_ne_rejected h hn)]
        exact hs.rejected n i hn
  · cases h with
    | scan input wire todo eof hrejected hheader heof =>
      refine ⟨hs.flow, hs.numbered, hs.alive, hs.retired, fun n id hn => ?_⟩
      show framesOf n s.sent = if input.rejectedOpen = true ∧ n = s.opens - 1 then [] else [.close id]
      rw [hrejected]
      exact hs.rejected n id hn
    | fail e h => exact ⟨hs.flow, hs.numbered, hs.alive, hs.retired, hs.rejected⟩
    | duplicate h => exact ⟨hs.flow, hs.numbered, hs.alive, hs.retired, hs.rejected⟩
    | dataHeader id length => exact ⟨hs.flow, hs.numbered, hs.alive, hs.retired, hs.rejected⟩
    | drop id bytes h => exact ⟨hs.flow, hs.numbered, hs.alive, hs.retired, hs.rejected⟩
    | closedUnknown id h => exact ⟨hs.flow, hs.numbered, hs.alive, hs.retired, hs.rejected⟩
    | closed id peer h =>
      have hset : Sending (s.setPeer id { peer with guestClosed := true }) := hs.setPeer h rfl rfl
      exact ⟨hs.flow, hs.numbered, hset.alive, hs.retired, hs.rejected⟩
    | accept id peer bytes input h hopen hpush =>
      have hset : Sending (s.setPeer id { peer with input := input, accepted := peer.accepted ++ bytes }) :=
        hs.setPeer h rfl rfl
      exact ⟨hs.flow, hs.numbered, hset.alive, hs.retired, hs.rejected⟩
    | opened id connecting retrying h hrej =>
      refine ⟨hs.flow, fun f hf => Nat.lt_succ_of_lt (hs.numbered f hf), fun i p hp => ?_, hs.retired,
        fun n i hn => ?_⟩
      · have hget := hp
        dsimp only at hget
        rw [Table.get_set] at hget
        split at hget
        · cases hget
          refine ⟨[], ?_, rfl⟩
          exact framesOf_eq_nil hs.numbered
        · exact hs.alive i p hget
      · have hold := hs.rejected n i hn
        dsimp only
        rw [if_neg (by simp [hrej])] at hold ⊢
        exact hold
    | rejected h hlive =>
      refine ⟨hs.flow, fun f hf => Nat.lt_succ_of_lt (hs.numbered f hf), hs.alive, hs.retired, fun n i hn => ?_⟩
      show framesOf n s.sent = if true = true ∧ n = s.opens + 1 - 1 then [] else [.close i]
      rcases List.mem_append.1 hn with hn | hn
      · have hlt : n < s.opens := hc.lt_of_mem (Custody.rejected_mem hn)
        have hold := hs.rejected n i hn
        rw [if_neg (by simp [h])] at hold
        rw [if_neg (by omega)]
        exact hold
      · cases List.mem_singleton.1 hn
        rw [if_pos ⟨rfl, rfl⟩]
        exact framesOf_eq_nil hs.numbered
    | answer output h hpush =>
      obtain ⟨hpos, hmem⟩ := hc.waiting h
      have hlt : s.opens - 1 < s.opens := by omega
      refine ⟨hs.flow_queued hpush, hs.numbered_queued output hlt, fun i p hp => ?_, fun i p hp => ?_, fun n i hn => ?_⟩
      · show Carries i p.taken (framesOf p.serial (s.queued (s.opens - 1) _ output).sent)
        rw [framesOf_queued_of_ne s (hc.alive_ne_rejected hp hmem).symm]
        exact hs.alive i p hp
      · show ∃ frames, Carries i p.taken frames ∧ framesOf p.serial (s.queued (s.opens - 1) _ output).sent = _
        rw [framesOf_queued_of_ne s (hc.retired_ne_rejected hp hmem).symm]
        exact hs.retired i p hp
      · show framesOf n (s.queued (s.opens - 1) _ output).sent = if false = true ∧
          n = s.opens - 1 then [] else [.close i]
        rw [if_neg (by simp)]
        have hold := hs.rejected n i hn
        by_cases hn' : n = s.opens - 1
        · subst hn'
          rw [if_pos ⟨h, rfl⟩] at hold
          rw [framesOf_queued_self, hold, hc.rejected_inj hmem hn]
          rfl
        · rw [if_neg (fun hp => hn' hp.2)] at hold
          rw [framesOf_queued_of_ne s hn', hold]

end CocoaWay.Relay
