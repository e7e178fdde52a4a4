import CocoaWay.Relay.Bridge

/-!
# What the decoder makes of the bytes of the guest

* `Token`, `Frame.tokens`, `Item.tokens` : frames and decoded items byte by byte, so that reads of any size compare;
* `Position` : where the unread bytes stand in the frames of the guest, in front of a frame, in a payload, or behind
  an OPEN whose CLOSE waits; `Decodes`, `Decodes.turn` : kept by every turn of the loop;
* `replay`, `Replays` : the bytes a stream accepts while it is open, as the items tell them, and as the peers hold them.
-/

namespace CocoaWay.Relay
open Lib

variable {s s' t : State} {limits : Limits} {id : UInt32}

/-! ## Tokens -/

inductive Token where
  | start (id : UInt32)
  | data (id : UInt32) (length : Nat)
  | byte (id : UInt32) (b : UInt8)
  | close (id : UInt32)
  deriving DecidableEq

def Frame.tokens : Frame → List Token
  | .start id => [.start id]
  | .data id payload => .data id payload.length :: payload.map (.byte id)
  | .close id => [.close id]

/-- The ends of streams on the host side are no part of the byte stream. -/
def Item.tokens : Item → List Token
  | .opened id | .rejected id => [.start id]
  | .dataHeader id length => [.data id length]
  | .byte id b => [.byte id b]
  | .closed id => [.close id]
  | .retired _ => []

def tokensOf (items : List Item) : List Token := items.flatMap Item.tokens

def frameTokens (frames : List Frame) : List Token := frames.flatMap Frame.tokens

theorem tokensOf_append (l l' : List Item) : tokensOf (l ++ l') = tokensOf l ++ tokensOf l' := List.flatMap_append

theorem tokensOf_bytes (id : UInt32) (bytes : Bytes) : tokensOf (bytes.map (Item.byte id)) = bytes.map (.byte id) := by
  unfold tokensOf
  rw [List.flatMap_map]
  exact List.flatMap_pure_eq_map _ _

/-! ## Positions -/

/-- The bytes of the guest behind a position in front of a frame. -/
def State.ahead (s : State) : Bytes := s.todo.flatMap Frame.encode ++ s.tail.getD []

/-- The tokens of the guest behind such a position. -/
def State.tokensAhead (s : State) : List Token := frameTokens s.todo

/-- The decoder itself has failed with the error. -/
def State.decoderFailed (s : State) (e : BridgeError) : Prop :=
  s.result = some (.error e) ∧ (e = .invalidHeader ∨ e = .duplicateStream)

inductive Position (s : State) : Prop
  /-- In front of a frame, or in its header. -/
  | between (wire : s.input.header ++ s.wire = s.ahead)
      (tokens : tokensOf s.items ++ s.tokensAhead = frameTokens s.guest)
      (unfinished : (∀ e, ¬ s.decoderFailed e) →
        s.input.header.length < headerSize ∧ s.input.remaining = none ∧ s.input.rejectedOpen = false)
      (invalid : s.result = some (.error .invalidHeader) → s.todo = [] ∧ s.input.header.length = headerSize)
      (duplicate : s.result = some (.error .duplicateStream) →
        s.input.header.length = headerSize ∧ ∃ rest, s.todo = .start (headerId s.input.header) :: rest)
  /-- In the payload of a DATA frame. -/
  | payload (rest : Bytes) (header : s.input.header.length = headerSize ∧ headerKind s.input.header = kindData)
      (remaining : s.input.remaining = some rest.length) (within : rest.length ≤ maxFrame)
      (unrejected : s.input.rejectedOpen = false) (wire : s.wire = rest ++ s.ahead)
      (tokens : tokensOf s.items ++ (rest.map (.byte (headerId s.input.header)) ++ s.tokensAhead) = frameTokens s.guest)
      (valid : ∀ e, ¬ s.decoderFailed e)
  /-- Behind a rejected OPEN. -/
  | rejected (header : s.input.header.length = headerSize ∧ headerKind s.input.header = kindOpen)
      (remaining : s.input.remaining = some 0) (unanswered : s.input.rejectedOpen = true) (wire : s.wire = s.ahead)
      (tokens : tokensOf s.items ++ s.tokensAhead = frameTokens s.guest)
      (valid : ∀ e, ¬ s.decoderFailed e)

/-- The decoder stands somewhere in the frames of the guest, which are within the limits; what follows them is none. -/
structure Decodes (s : State) : Prop where
  position : Position s
  wellFormed : ∀ f ∈ s.todo, f.WellFormed
  tail : ∀ bytes, s.tail = some bytes → bytes.length < headerSize ∨ validHeader bytes = false

/-- What a part of the loop that is not the decoder does: nothing to the decoder, and it fails for its own reasons. -/
structure SameDecoder (s s' : State) : Prop where
  input : s'.input = s.input
  wire : s'.wire = s.wire
  todo : s'.todo = s.todo
  tail : s'.tail = s.tail
  guest : s'.guest = s.guest
  tokens : tokensOf s'.items = tokensOf s.items
  failed : ∀ e, s'.decoderFailed e ↔ s.decoderFailed e

theorem SameDecoder.refl (s : State) : SameDecoder s s := ⟨rfl, rfl, rfl, rfl, rfl, rfl, fun _ => Iff.rfl⟩

theorem SameDecoder.trans (h : SameDecoder s s') (h' : SameDecoder s' t) : SameDecoder s t :=
  ⟨h'.input.trans h.input, h'.wire.trans h.wire, h'.todo.trans h.todo, h'.tail.trans h.tail,
    h'.guest.trans h.guest, h'.tokens.trans h.tokens, fun e => (h'.failed e).trans (h.failed e)⟩

theorem not_decoderFailed_of_none (h : s.result = none) (e : BridgeError) : ¬ s.decoderFailed e := by
  rintro ⟨hr, -⟩
  rw [h] at hr
  cases hr

theorem not_decoderFailed_of_eq (h : s'.result = s.result) (hv : ∀ e, ¬ s.decoderFailed e) :
    ∀ e, ¬ s'.decoderFailed e := by
  intro e hf
  exact hv e ⟨h ▸ hf.1, hf.2⟩

theorem sameDecoder_fail (hv : ∀ e, ¬ s.decoderFailed e) {e : BridgeError}
    (he : e ≠ .invalidHeader ∧ e ≠ .duplicateStream) : SameDecoder s (s.fail e) := by
  refine ⟨rfl, rfl, rfl, rfl, rfl, rfl, fun e' => iff_of_false ?_ (hv e')⟩
  rintro ⟨hr, he'⟩
  obtain rfl : e = e' := by simpa [State.fail] using hr
  exact he'.elim he.1 he.2

theorem SameDecoder.ahead (h : SameDecoder s s') : s'.ahead = s.ahead := by
  unfold State.ahead
  rw [h.todo, h.tail]

theorem SameDecoder.tokensAhead (h : SameDecoder s s') : s'.tokensAhead = s.tokensAhead := by
  unfold State.tokensAhead
  rw [h.todo]

theorem Position.frame (hp : Position s) (h : SameDecoder s s') : Position s' := by
  have hvalid : (∀ e, ¬ s'.decoderFailed e) ↔ ∀ e, ¬ s.decoderFailed e :=
    forall_congr' fun e => not_congr (h.failed e)
  cases hp with
  | between wire tokens unfinished invalid duplicate =>
    refine .between (by rw [h.input, h.wire, h.ahead, wire]) (by rw [h.tokens, h.tokensAhead, h.guest, tokens])
      (fun hr => ?_) (fun hr => ?_) (fun hr => ?_)
    · rw [h.input]
      exact unfinished (hvalid.1 hr)
    · rw [h.todo, h.input]
      exact invalid ((h.failed _).1 ⟨hr, Or.inl rfl⟩).1
    · rw [h.todo, h.input]
      exact duplicate ((h.failed _).1 ⟨hr, Or.inr rfl⟩).1
  | payload rest header remaining within unrejected wire tokens valid =>
    exact .payload rest (by rw [h.input]; exact header) (by rw [h.input]; exact remaining) within
      (by rw [h.input]; exact unrejected) (by rw [h.wire, h.ahead]; exact wire)
      (by rw [h.input, h.tokens, h.tokensAhead, h.guest]; exact tokens) (hvalid.2 valid)
  | rejected header remaining unanswered wire tokens valid =>
    exact .rejected (by rw [h.input]; exact header) (by rw [h.input]; exact remaining)
      (by rw [h.input]; exact unanswered) (by rw [h.wire, h.ahead]; exact wire)
      (by rw [h.tokens, h.tokensAhead, h.guest]; exact tokens) (hvalid.2 valid)

theorem Decodes.frame (hd : Decodes s) (h : SameDecoder s s') : Decodes s' :=
  ⟨hd.position.frame h, h.todo ▸ hd.wellFormed, h.tail ▸ hd.tail⟩

theorem State.andThen_of {P : State → Prop} {f : State → State} (h : P s) (hf : s.result = none → P (f s)) :
    P (s.andThen f) := by
  unfold State.andThen
  split
  · exact h
  next hr =>
    exact hf (by simpa using hr)

/-! ## Headers -/

variable {answers : Answers} {header : Bytes}

theorem headerLength_append (h : header.length = headerSize) (rest : Bytes) :
    headerLength (header ++ rest) = headerLength header := by
  unfold headerSize at h
  unfold headerLength
  rw [List.drop_append_of_le_length (by omega), List.take_append_of_le_length (by rw [List.length_drop]; omega)]

theorem headerKind_append (h : header.length = headerSize) (rest : Bytes) :
    headerKind (header ++ rest) = headerKind header := by
  cases header with
  | nil => cases h
  | cons b header => rfl

theorem validHeader_append (h : header.length = headerSize) (rest : Bytes) :
    validHeader (header ++ rest) = validHeader header := by
  unfold validHeader
  rw [headerLength_append h, headerKind_append h]

/-- The condition under which a header is rejected. -/
theorem rejects_iff (header : Bytes) :
    (maxFrame < headerLength header ∨ headerKind header ∉ [kindOpen, kindData, kindClose] ∨
      (headerKind header ≠ kindData ∧ headerLength header ≠ 0)) ↔ validHeader header = false := by
  unfold validHeader
  simp only [Bool.and_eq_false_iff, Bool.or_eq_false_iff, decide_eq_false_iff_not, Nat.not_le, List.contains_eq_mem,
    beq_eq_false_iff_ne, ne_eq]
  tauto

/-- Nine bytes in front of the rest of the guest's bytes are the header of the next frame, or of none. -/
theorem next_frame (hwf : ∀ f ∈ s.todo, f.WellFormed)
    (htail : ∀ bytes, s.tail = some bytes → bytes.length < headerSize ∨ validHeader bytes = false)
    (hlen : s.input.header.length = headerSize) (hw : s.input.header ++ s.wire = s.ahead) :
    (s.todo = [] ∧ validHeader s.input.header = false) ∨
    ∃ f rest, s.todo = f :: rest ∧ f.WellFormed ∧ s.input.header = f.header ∧
      s.wire = f.payload ++ (rest.flatMap Frame.encode ++ s.tail.getD []) := by
  unfold State.ahead at hw
  cases htodo : s.todo with
  | nil =>
    rw [htodo, List.flatMap_nil, List.nil_append] at hw
    cases ht : s.tail with
    | none =>
      have := congrArg List.length hw
      rw [ht, List.length_append, hlen] at this
      simp [headerSize] at this
    | some bytes =>
      rw [ht, Option.getD_some] at hw
      refine Or.inl ⟨rfl, ?_⟩
      rcases htail bytes ht with hshort | hinv
      · have := congrArg List.length hw
        rw [List.length_append, hlen] at this
        omega
      · rw [← hw, validHeader_append hlen] at hinv
        exact hinv
  | cons f rest =>
    rw [htodo, List.flatMap_cons, encode_eq, List.append_assoc, List.append_assoc] at hw
    obtain ⟨hheader, hwire⟩ := List.append_inj hw (by rw [hlen, length_header])
    exact Or.inr ⟨f, rest, rfl, hwf f (by simp [htodo]), hheader, hwire⟩

/-! ## Decoding -/

theorem Decodes.resetInput (hwf : ∀ f ∈ s.todo, f.WellFormed)
    (htail : ∀ bytes, s.tail = some bytes → bytes.length < headerSize ∨ validHeader bytes = false)
    (hw : s.wire = s.ahead) (ht : tokensOf s.items ++ s.tokensAhead = frameTokens s.guest)
    (hv : ∀ e, ¬ s.decoderFailed e) : Decodes s.resetInput :=
  ⟨.between hw ht (fun _ => ⟨Nat.zero_lt_succ 8, rfl, rfl⟩) (fun hr => absurd ⟨hr, Or.inl rfl⟩ (hv _))
    (fun hr => absurd ⟨hr, Or.inr rfl⟩ (hv _)), hwf, htail⟩

theorem sameDecoder_pushFrame (hv : ∀ e, ¬ s.decoderFailed e) (serial : Nat) (frame : Frame) :
    SameDecoder s (s.pushFrame serial frame) := by
  unfold State.pushFrame
  split
  · exact ⟨rfl, rfl, rfl, rfl, rfl, rfl, fun _ => Iff.rfl⟩
  · exact sameDecoder_fail hv (by decide)

theorem sameDecoder_setPeer (s : State) (id : UInt32) (peer : Peer) : SameDecoder s (s.setPeer id peer) :=
  ⟨rfl, rfl, rfl, rfl, rfl, rfl, fun _ => Iff.rfl⟩

/-- Where the decoder stands with an OPEN that was rejected. -/
theorem Decodes.of_rejectedOpen (hd : Decodes s) (hr : s.result = none) (hrej : s.input.rejectedOpen = true) :
    (s.input.header.length = headerSize ∧ headerKind s.input.header = kindOpen) ∧ s.input.remaining = some 0 ∧
      s.wire = s.ahead ∧ tokensOf s.items ++ s.tokensAhead = frameTokens s.guest := by
  cases hd.position with
  | between wire tokens unfinished invalid duplicate =>
    rw [(unfinished (not_decoderFailed_of_none hr)).2.2] at hrej
    cases hrej
  | payload rest header remaining within unrejected wire tokens valid =>
    rw [unrejected] at hrej
    cases hrej
  | rejected header remaining unanswered wire tokens valid => exact ⟨header, remaining, wire, tokens⟩

theorem Decodes.answerRejected (hd : Decodes s) (hrej : s.input.rejectedOpen = true) (hr : s.result = none) :
    Decodes (s.answerRejected id) := by
  unfold State.answerRejected
  split
  · exact hd
  · have hpush := sameDecoder_pushFrame (not_decoderFailed_of_none hr) (s.opens - 1) (.close id)
    refine State.andThen_of (hd.frame hpush) fun hr' => ?_
    have hd' := hd.frame hpush
    have hv := not_decoderFailed_of_none hr'
    obtain ⟨-, -, wire, tokens⟩ := hd.of_rejectedOpen hr hrej
    exact Decodes.resetInput hd'.wellFormed hd'.tail (by rw [hpush.wire, hpush.ahead, wire])
      (by rw [hpush.tokens, hpush.tokensAhead, hpush.guest, tokens]) hv

/-- The decoder at an OPEN header. -/
structure AtOpen (s : State) (id : UInt32) (rest : List Frame) : Prop where
  todo : s.todo = .start id :: rest
  header : s.input.header = (Frame.start id).header
  remaining : s.input.remaining = some 0
  wire : s.wire = rest.flatMap Frame.encode ++ s.tail.getD []
  tokens : tokensOf s.items ++ s.tokensAhead = frameTokens s.guest
  wellFormed : ∀ f ∈ s.todo, f.WellFormed
  tail : ∀ bytes, s.tail = some bytes → bytes.length < headerSize ∨ validHeader bytes = false
  result : s.result = none

theorem AtOpen.tokens_tail {rest : List Frame} (h : AtOpen s id rest) {item : Item} (hi : item.tokens = [.start id]) :
    tokensOf (s.items ++ [item]) ++ frameTokens rest = frameTokens s.guest := by
  have hitem : tokensOf [item] = [.start id] := by
    unfold tokensOf
    rw [List.flatMap_singleton, hi]
  have hahead : s.tokensAhead = .start id :: frameTokens rest := by
    unfold State.tokensAhead frameTokens
    rw [h.todo, List.flatMap_cons]
    rfl
  rw [tokensOf_append, hitem, List.append_assoc, List.singleton_append, ← hahead]
  exact h.tokens

theorem Decodes.decodeOpen {rest : List Frame} {connect : Connect} (h : AtOpen s id rest)
    (hrej : s.input.rejectedOpen = false) : Decodes (s.decodeOpen limits id connect) := by
  have hrest : ∀ f ∈ rest, f.WellFormed := fun f hf => h.wellFormed f (by simp [h.todo, hf])
  have hne := not_decoderFailed_of_none h.result
  unfold State.decodeOpen
  rw [if_neg (by simp [hrej])]
  split
  · have hwire : (s.fail .duplicateStream).input.header ++ (s.fail .duplicateStream).wire =
        (s.fail .duplicateStream).ahead := by
      show s.input.header ++ s.wire = s.ahead
      unfold State.ahead
      rw [h.todo, List.flatMap_cons, encode_eq, h.header, h.wire]
      simp [Frame.payload]
    have hfailed : (s.fail .duplicateStream).decoderFailed .duplicateStream := ⟨rfl, Or.inr rfl⟩
    refine ⟨.between hwire h.tokens (fun hv => absurd hfailed (hv _)) (fun hr => by cases hr) (fun _ => ⟨?_, rest, ?_⟩),
      h.wellFormed, h.tail⟩
    · show s.input.header.length = headerSize
      rw [h.header, length_header]
    show s.todo = .start (headerId s.input.header) :: rest
    rw [h.todo, h.header, headerId_header]
    rfl
  · split
    · refine Decodes.resetInput ?_ h.tail ?_ ?_ hne
      · dsimp only
        rw [h.todo]
        exact hrest
      · show s.wire = _
        unfold State.ahead
        dsimp only
        rw [h.todo]
        exact h.wire
      · unfold State.tokensAhead
        dsimp only
        rw [h.todo]
        exact h.tokens_tail rfl
    · refine Decodes.answerRejected ⟨.rejected ?_ h.remaining rfl ?_ ?_ hne, ?_, h.tail⟩ rfl h.result
      · dsimp only
        rw [h.header]
        exact ⟨length_header _, rfl⟩
      · unfold State.ahead
        dsimp only
        rw [h.todo]
        exact h.wire
      · unfold State.tokensAhead
        dsimp only
        rw [h.todo]
        exact h.tokens_tail rfl
      · dsimp only
        rw [h.todo]
        exact hrest

theorem Decodes.payloadRead {bytes : Bytes} {length : Nat} (rest : Bytes) (hwf : ∀ f ∈ s.todo, f.WellFormed)
    (htail : ∀ bytes, s.tail = some bytes → bytes.length < headerSize ∨ validHeader bytes = false)
    (hheader : s.input.header.length = headerSize ∧ headerKind s.input.header = kindData)
    (hid : headerId s.input.header = id) (hlen : length = (bytes ++ rest).length) (hmax : length ≤ maxFrame)
    (hrej : s.input.rejectedOpen = false) (hw : s.wire = bytes ++ rest ++ s.ahead)
    (ht : tokensOf s.items ++ ((bytes ++ rest).map (.byte id) ++ s.tokensAhead) = frameTokens s.guest)
    (hv : ∀ e, ¬ s.decoderFailed e) : Decodes (s.payloadRead id length bytes) := by
  have hdrop : s.wire.drop bytes.length = rest ++ s.ahead := by
    rw [hw, List.append_assoc, List.drop_left]
  have htokens : tokensOf (s.items ++ bytes.map (Item.byte id)) ++ (rest.map (.byte id) ++ s.tokensAhead) =
      frameTokens s.guest := by
    rw [tokensOf_append, tokensOf_bytes, List.append_assoc, ← List.append_assoc (bytes.map _), ← List.map_append]
    exact ht
  rw [List.length_append] at hlen
  unfold State.payloadRead
  dsimp only
  split
  · obtain rfl : rest = [] := List.eq_nil_of_length_eq_zero (by omega)
    exact Decodes.resetInput hwf htail hdrop htokens hv
  · refine ⟨.payload rest hheader ?_ (by omega) hrej hdrop ?_ hv, hwf, htail⟩
    · show some (length - bytes.length) = some rest.length
      congr 1
      omega
    · dsimp only
      rw [hid]
      exact htokens

/-- The next part of a payload: the unread rest of it is `rest`. -/
theorem Decodes.decodePayload {length : Nat} {outcome : ReadOutcome} (rest : Bytes)
    (hwf : ∀ f ∈ s.todo, f.WellFormed)
    (htail : ∀ bytes, s.tail = some bytes → bytes.length < headerSize ∨ validHeader bytes = false)
    (hheader : s.input.header.length = headerSize ∧ headerKind s.input.header = kindData)
    (hid : headerId s.input.header = id) (hrem : s.input.remaining = some length) (hlen : length = rest.length)
    (hmax : length ≤ maxFrame) (hrej : s.input.rejectedOpen = false) (hw : s.wire = rest ++ s.ahead)
    (ht : tokensOf s.items ++ (rest.map (.byte id) ++ s.tokensAhead) = frameTokens s.guest)
    (hv : ∀ e, ¬ s.decoderFailed e) : Decodes (s.decodePayload id length outcome) := by
  subst hid
  have hstay : Decodes s :=
    ⟨.payload rest hheader (by rw [hrem, hlen]) (by omega) hrej hw ht hv, hwf, htail⟩
  unfold State.decodePayload
  split
  next h0 =>
    obtain rfl : rest = [] := List.eq_nil_of_length_eq_zero (by omega)
    exact Decodes.resetInput hwf htail hw ht hv
  next h0 =>
    dsimp only
    split
    · exact hstay
    next hroom =>
      cases outcome with
      | eof => exact hstay.frame (sameDecoder_fail hv (by decide))
      | failed => exact hstay.frame (sameDecoder_fail hv (by decide))
      | retry => exact hstay
      | upTo n =>
        dsimp only
        split
        · exact hstay
        next hne =>
          generalize hk : min n (min (min length chunkSize) _) = k at hne ⊢
          have hk : k ≤ rest.length := by omega
          have hbytes : s.wire.take k = rest.take k := by
            rw [hw, List.take_append_of_le_length hk]
          rw [hbytes]
          have hsplit : rest.take k ++ rest.drop k = rest := List.take_append_drop k rest
          have hread : ∀ u : State, SameDecoder s u → u.result = s.result →
              Decodes (u.payloadRead (headerId s.input.header) length (rest.take k)) := by
            intro u hu hres
            refine Decodes.payloadRead (rest.drop k) (hu.todo ▸ hwf) (hu.tail ▸ htail) (hu.input ▸ hheader)
              (by rw [hu.input]) (by rw [hsplit, hlen]) hmax (hu.input ▸ hrej) ?_ ?_ (not_decoderFailed_of_eq hres hv)
            · rw [hsplit, hu.wire, hu.ahead, hw]
            · rw [hsplit, hu.tokens, hu.tokensAhead, hu.guest, ht]
          split
          · exact hread s (SameDecoder.refl s) rfl
          · split
            · exact hstay.frame (sameDecoder_fail hv (by decide))
            · exact hread _ (sameDecoder_setPeer s _ _) rfl

/-- `decode` behind a header that has just been completed. -/
theorem Decodes.decode_fresh (hwf : ∀ f ∈ s.todo, f.WellFormed)
    (htail : ∀ bytes, s.tail = some bytes → bytes.length < headerSize ∨ validHeader bytes = false)
    (hlen : s.input.header.length = headerSize) (hrem : s.input.remaining = none) (hrej : s.input.rejectedOpen = false)
    (hw : s.input.header ++ s.wire = s.ahead) (ht : tokensOf s.items ++ s.tokensAhead = frameTokens s.guest)
    (hr : s.result = none) : Decodes (s.decode limits answers) := by
  have hv := not_decoderFailed_of_none hr
  have hlength : s.input.remaining.getD (headerLength s.input.header) = headerLength s.input.header := by rw [hrem]; rfl
  unfold State.decode
  dsimp only
  rw [hlength]
  rcases next_frame hwf htail hlen hw with ⟨htodo, hinv⟩ | ⟨f, rest, htodo, hf, hheader, hwire⟩
  · rw [if_pos ((rejects_iff _).2 hinv)]
    have hfailed : State.decoderFailed (s.fail .invalidHeader) .invalidHeader := ⟨rfl, Or.inl rfl⟩
    exact ⟨.between hw ht (fun hv => absurd hfailed (hv _)) (fun _ => ⟨htodo, hlen⟩) (fun hr => by cases hr), hwf, htail⟩
  · have hvalid : validHeader s.input.header = true := by
      rw [hheader]
      exact validHeader_header hf
    have hrest : ∀ g ∈ rest, g.WellFormed := fun g hg => hwf g (by simp [htodo, hg])
    rw [if_neg (by rw [rejects_iff, hvalid]; exact Bool.noConfusion)]
    have hkind : headerKind s.input.header = f.kind := by rw [hheader, headerKind_header]
    have hid : headerId s.input.header = f.id := by rw [hheader, headerId_header]
    have hn : headerLength s.input.header = f.payload.length := by rw [hheader, headerLength_header hf]
    rw [hkind, hid, hn]
    cases f with
    | start id =>
      have hopen : (Frame.start id).kind = kindOpen := rfl
      rw [if_pos hopen]
      exact Decodes.decodeOpen ⟨htodo, hheader, rfl, by simpa [Frame.payload] using hwire, ht, hwf, htail, hr⟩ hrej
    | close id =>
      have hopen : ¬ (Frame.close id).kind = kindOpen := by simp [Frame.kind, kindOpen, kindClose]
      have hclose : (Frame.close id).kind = kindClose := rfl
      rw [if_neg hopen, if_pos hclose]
      have htokens : tokensOf (s.items ++ [Item.closed id]) ++ frameTokens rest = frameTokens s.guest := by
        have hahead : s.tokensAhead = .close id :: frameTokens rest := by
          unfold State.tokensAhead frameTokens
          rw [htodo, List.flatMap_cons]
          rfl
        rw [tokensOf_append, List.append_assoc, show tokensOf [Item.closed id] = [.close id] from rfl,
          List.singleton_append, ← hahead]
        exact ht
      unfold State.decodeClose
      dsimp only [Frame.id]
      have hreset : ∀ u : State, u.todo = rest → u.wire = s.wire → u.tail = s.tail → u.guest = s.guest →
          u.items = s.items ++ [Item.closed id] → u.result = s.result → Decodes u.resetInput := by
        intro u h1 h2 h3 h4 h5 h6
        refine Decodes.resetInput (by rw [h1]; exact hrest)
          (by rw [h3]; exact htail) ?_ ?_ (not_decoderFailed_of_eq h6 hv)
        · unfold State.ahead
          rw [h2, h1, h3, hwire]
          rfl
        · unfold State.tokensAhead
          rw [h5, h1, h4]
          exact htokens
      split
      · exact hreset _ (by simp [State.setPeer, htodo]) rfl rfl rfl rfl rfl
      · exact hreset _ (by simp [htodo]) rfl rfl rfl rfl rfl
    | data id payload =>
      have hopen : ¬ (Frame.data id payload).kind = kindOpen := by simp [Frame.kind, kindOpen, kindData]
      have hclose : ¬ (Frame.data id payload).kind = kindClose := by simp [Frame.kind, kindClose, kindData]
      have hnone : (none : Option Nat).isNone = true := rfl
      rw [if_neg hopen, if_neg hclose, hrem, if_pos hnone]
      have hahead : s.tokensAhead = .data id payload.length :: (payload.map (.byte id) ++ frameTokens rest) := by
        unfold State.tokensAhead frameTokens
        rw [htodo, List.flatMap_cons]
        rfl
      refine Decodes.decodePayload payload ?_ htail ⟨hlen, hkind⟩ hid rfl rfl hf hrej ?_ ?_ hv
      · dsimp only
        rw [htodo]
        exact hrest
      · unfold State.ahead
        dsimp only
        rw [htodo]
        exact hwire
      · unfold State.tokensAhead
        dsimp only [Frame.id, Frame.payload]
        rw [htodo, tokensOf_append, List.append_assoc,
          show tokensOf [Item.dataHeader id payload.length] = [.data id payload.length] from rfl, List.singleton_append,
          List.tail_cons, ← hahead]
        exact ht

/-- Behind a rejected OPEN, `decode` answers it or does nothing. -/
theorem decode_rejected (hkind : headerKind s.input.header = kindOpen)
    (hremaining : s.input.remaining = some 0) (hrej : s.input.rejectedOpen = true) :
    s.decode limits answers = s.answerRejected (headerId s.input.header) := by
  have hs : { s with input := { s.input with remaining := some 0 } } = s := by
    rw [← hremaining]
  unfold State.decode
  dsimp only
  rw [hremaining, Option.getD_some, hkind, if_neg (by simp [kindOpen, kindData, kindClose]), if_pos rfl, hs]
  unfold State.decodeOpen
  rw [if_pos hrej]

/-- `decode` in a payload or behind a rejected OPEN. -/
theorem Decodes.decode_resumed (hd : Decodes s) (hlen : s.input.header.length = headerSize)
    (hr : s.result = none) : Decodes (s.decode limits answers) := by
  cases hd.position with
  | between wire tokens unfinished invalid duplicate =>
    have := (unfinished (not_decoderFailed_of_none hr)).1
    omega
  | payload rest header remaining within unrejected wire tokens valid =>
    unfold State.decode
    dsimp only
    rw [remaining, Option.getD_some, header.2, if_neg (by simp [kindOpen, kindData, kindClose]; exact within),
      if_neg (by decide), if_neg (by decide), if_neg (by simp)]
    have hs : { s with input := { s.input with remaining := some rest.length } } = s := by
      rw [← remaining]
    rw [hs]
    exact Decodes.decodePayload rest hd.wellFormed hd.tail header rfl remaining rfl within unrejected wire tokens valid
  | rejected header remaining unanswered wire tokens valid =>
    rw [decode_rejected header.2 remaining unanswered]
    exact hd.answerRejected unanswered hr

theorem take_append_drop_length (k : Nat) (w : Bytes) : w.take k ++ w.drop (w.take k).length = w := by
  rw [List.length_take]
  rcases Nat.le_total k w.length with h | h
  · rw [Nat.min_eq_left h, List.take_append_drop]
  · rw [Nat.min_eq_right h, List.drop_length, List.take_of_length_le h, List.append_nil]

theorem Decodes.readInput (hd : Decodes s) (hr : s.result = none) :
    Decodes (s.readInput limits answers).1 := by
  unfold State.readInput
  split
  next hlt =>
    cases answers.header with
    | eof =>
      dsimp only
      split
      · exact hd
      · exact hd.frame (sameDecoder_fail (not_decoderFailed_of_none hr) (by decide))
    | failed => exact hd.frame (sameDecoder_fail (not_decoderFailed_of_none hr) (by decide))
    | retry => exact hd
    | upTo n =>
      dsimp only
      cases hd.position with
      | payload rest header => omega
      | rejected header => omega
      | between wire tokens unfinished invalid duplicate =>
        have hwire : s.input.header ++ s.wire.take (min n (headerSize - s.input.header.length)) ++
            s.wire.drop (s.wire.take (min n (headerSize - s.input.header.length))).length = s.ahead := by
          rw [List.append_assoc, take_append_drop_length, wire]
        have hle : (s.input.header ++ s.wire.take (min n (headerSize - s.input.header.length))).length ≤
          headerSize := by
          rw [List.length_append, List.length_take]
          omega
        obtain ⟨-, hrem, hrej⟩ := unfinished (not_decoderFailed_of_none hr)
        split
        next hlt' =>
          exact ⟨.between hwire tokens (fun _ => ⟨hlt', hrem, hrej⟩)
            (fun hi => by rw [hr] at hi; cases hi) (fun hi => by rw [hr] at hi; cases hi), hd.wellFormed, hd.tail⟩
        next hge =>
          exact Decodes.decode_fresh hd.wellFormed hd.tail (Nat.le_antisymm hle (Nat.not_lt.1 hge)) hrem hrej hwire tokens
            hr
  next hge =>
    refine hd.decode_resumed ?_ hr
    cases hd.position with
    | between wire tokens unfinished invalid duplicate =>
      have := (unfinished (not_decoderFailed_of_none hr)).1
      omega
    | payload rest header => exact header.1
    | rejected header => exact header.1

end CocoaWay.Relay
