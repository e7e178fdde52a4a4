import CocoaWay.Lib.Split
import CocoaWay.ResearchMcp.Transport
import Mathlib.Data.List.Induction

/-!
# Every order of reports to the stdio loop

* `next_cases` : what the buffer gives; `Inv` : what every round keeps; `step_keeps`, `run_keeps`;
* `Fair`, `Within` : a system that does not fail, and a client that keeps to the limit;
* `Stuck` : the input is hung up while the buffer is full; `step_fails`, `run_fails` : what a run fails by;
* `Promises`, `serve_iff` : what the loop promises, and when it keeps it; `writtenAhead_fails` : a client that writes
  ahead.
-/

namespace CocoaWay.ResearchMcp
open Lib

variable {σ : Type} {server : Server σ} {l l' : Loop σ} {r : Round σ} {e : End} {fs : Frames}

/-! ## The buffer -/

/-- A frame with its line feed, the last frame, nothing, or too much. -/
theorem next_cases (hbound : fs.bytes.length ≤ maxFrame + 1) :
    (∃ frame rest, fs.bytes = frame ++ lineFeed :: rest ∧ lineFeed ∉ frame ∧
      fs.next = .ok (some frame, { fs with bytes := rest })) ∨
    lineFeed ∉ fs.bytes ∧
      (fs.eof = true ∧ fs.bytes ≠ [] ∧ fs.bytes.length ≤ maxFrame ∧
        fs.next = .ok (some fs.bytes, { fs with bytes := [] }) ∨
      (fs.eof = true → fs.bytes = []) ∧ fs.bytes.length ≤ maxFrame ∧ fs.next = .ok (none, fs) ∨
      maxFrame < fs.bytes.length ∧ fs.next = .error "stdin_frame_limit_exceeded") := by
  unfold Frames.next Frames.nextLength
  by_cases hmem : lineFeed ∈ fs.bytes
  · obtain ⟨frame, rest, hbytes, hframe⟩ := List.eq_append_cons_of_mem hmem
    left
    refine ⟨frame, rest, hbytes, hframe, ?_⟩
    rw [hbytes, List.length_append, List.length_cons] at hbound
    have hconsumed : min (frame.length + 1) (frame ++ lineFeed :: rest).length = frame.length + 1 := by
      rw [List.length_append, List.length_cons]
      omega
    rw [hbytes, findIdx?_append_cons hframe]
    dsimp only
    rw [if_neg (by omega), hconsumed, List.take_left, ← List.drop_drop, List.drop_left]
    rfl
  · right
    refine ⟨hmem, ?_⟩
    rw [findIdx?_eq_none.2 hmem]
    dsimp only
    by_cases hlong : maxFrame < fs.bytes.length
    · right
      right
      rw [if_pos hlong]
      exact ⟨hlong, rfl⟩
    · rw [if_neg hlong]
      by_cases hlast : (fs.eof && !fs.bytes.isEmpty) = true
      · rw [Bool.and_eq_true, Bool.not_eq_true', List.isEmpty_eq_false_iff] at hlast
        have hconsumed : min (fs.bytes.length + 1) fs.bytes.length = fs.bytes.length := by omega
        left
        rw [if_pos (by simpa using hlast)]
        dsimp only
        rw [if_neg hlong, hconsumed, List.take_length, List.drop_length]
        exact ⟨hlast.1, hlast.2, Nat.le_of_not_lt hlong, rfl⟩
      · right
        left
        rw [if_neg hlast]
        refine ⟨fun heof => ?_, Nat.le_of_not_lt hlong, rfl⟩
        simpa [heof] using hlast

/-! ## What every round keeps -/

structure Inv (l : Loop σ) : Prop where
  taken : Taken lineFeed l.frames.eof l.received l.handled l.frames.bytes
  output : joined lineFeed l.responses = l.sent ++ l.pending.drop l.written
  bounded : l.frames.bytes.length ≤ maxFrame + 1

theorem inv_start (s : σ) : Inv (.start s) where
  taken := .complete nofun rfl
  output := rfl
  bounded := Nat.zero_le _

/-- Every frame is handled, and every response is written. -/
def Complete (l : Loop σ) : Prop :=
  l.handled = frames lineFeed true l.received ∧ l.sent = joined lineFeed l.responses

/-- A part of a round keeps what every round keeps, and ends well only if all is done. -/
structure Keeps (l : Loop σ) (out : Loop σ × Option End) : Prop where
  inv : Inv out.1
  received : l.received <+: out.1.received
  done : out.2 = some .done → Complete out.1

theorem Keeps.refl (h : Inv l) (he : e ≠ .done) : Keeps l (l, some e) :=
  ⟨h, List.prefix_refl _, fun hdone => absurd (Option.some.inj hdone) he⟩

theorem Keeps.rest (h : Inv l) : Keeps l (l, none) := ⟨h, List.prefix_refl _, nofun⟩

theorem Keeps.trans {out : Loop σ × Option End} (h : Keeps l (l', none)) (h' : Keeps l' out) : Keeps l out :=
  ⟨h'.inv, h.received.trans h'.received, h'.done⟩

/-- A frame that is taken is handled, and its response is pending. -/
theorem handle_keeps {frame : List UInt8} {fs : Frames} (h : Inv l) (hpending : l.pending = [])
    (htaken : Taken lineFeed fs.eof l.received (l.handled ++ [frame]) fs.bytes)
    (hbound : fs.bytes.length ≤ maxFrame) (hnext : l.frames.next = .ok (some frame, fs)) :
    ∃ l', take server l = (l', none) ∧ Keeps l (l', none) ∧ l'.frames = fs := by
  have houtput := h.output
  rw [hpending, List.drop_nil, List.append_nil] at houtput
  have hbound' := Nat.le_succ_of_le hbound
  unfold take
  rw [if_neg (by simp [hpending]), hnext]
  dsimp only
  cases hresponse : (server.handle l.server frame).2 with
  | none =>
    have houtput' : joined lineFeed l.responses = l.sent ++ l.pending.drop l.written := by
      rw [houtput, hpending, List.drop_nil, List.append_nil]
    exact ⟨_, rfl, ⟨⟨htaken, houtput', hbound'⟩, List.prefix_refl _, nofun⟩, rfl⟩
  | some encoded =>
    have hlength := server.handle_length l.server frame encoded hresponse
    have houtput' : joined lineFeed (l.responses ++ [encoded]) = l.sent ++ (encoded ++ [lineFeed]).drop 0 := by
      rw [joined_append, houtput, joined_singleton, List.drop_zero]
    dsimp only
    rw [if_neg (Nat.not_le.2 hlength)]
    exact ⟨_, rfl, ⟨⟨htaken, houtput', hbound'⟩, List.prefix_refl _, nofun⟩, rfl⟩

/-- Something is pending, there is room, all is done, or there is no frame in a full buffer. -/
theorem take_cases (server : Server σ) (h : Inv l) :
    l.pending ≠ [] ∧ take server l = (l, none) ∨
    l.pending = [] ∧
      ((∃ l', take server l = (l', none) ∧ Keeps l (l', none) ∧ l'.frames.eof = l.frames.eof ∧
        l'.frames.bytes.length ≤ maxFrame) ∨
      take server l = (l, some .done) ∧ Complete l ∨
      take server l = (l, some (.failed "stdin_frame_limit_exceeded")) ∧ lineFeed ∉ l.frames.bytes ∧
        maxFrame < l.frames.bytes.length) := by
  by_cases hpending : l.pending = []
  · right
    refine ⟨hpending, ?_⟩
    rcases next_cases h.bounded with ⟨frame, rest, hbytes, hframe, hnext⟩ | ⟨hopen, ⟨heof, hne, hlength, hnext⟩ |
      ⟨hempty, hlength, hnext⟩ | ⟨hlong, hnext⟩⟩
    · have hbound := h.bounded
      rw [hbytes, List.length_append, List.length_cons] at hbound
      have hrest : rest.length ≤ maxFrame := by omega
      obtain ⟨l', htake, hkeeps, hfs⟩ :=
        handle_keeps h hpending ((hbytes ▸ h.taken).next hframe) hrest hnext
      exact .inl ⟨l', htake, hkeeps, by rw [hfs], by rw [hfs]; exact hrest⟩
    · have htaken := h.taken
      rw [heof] at htaken
      obtain ⟨l', htake, hkeeps, hfs⟩ :=
        handle_keeps h hpending (heof ▸ htaken.takeLast hopen hne) (Nat.zero_le _) hnext
      exact .inl ⟨l', htake, hkeeps, by rw [hfs], by rw [hfs]; exact Nat.zero_le _⟩
    · have htake : take server l = (l, if l.frames.eof && !server.hasActive l.server then some .done else none) := by
        unfold take
        rw [if_neg (by simp [hpending]), hnext]
      by_cases hdone : (l.frames.eof && !server.hasActive l.server) = true
      · right
        left
        rw [if_pos hdone] at htake
        have heof := (Bool.and_eq_true_iff.1 hdone).1
        obtain ⟨more, hframes, hmore⟩ := h.taken.frames
        have houtput := h.output
        rw [hpending, List.drop_nil, List.append_nil] at houtput
        refine ⟨htake, ?_, houtput.symm⟩
        rw [← heof, hframes, hmore (hempty heof), List.append_nil]
      · left
        rw [if_neg hdone] at htake
        exact ⟨l, htake, .rest h, rfl, hlength⟩
    · right
      right
      refine ⟨?_, hopen, hlong⟩
      unfold take
      rw [if_neg (by simp [hpending]), hnext]
  · left
    refine ⟨hpending, ?_⟩
    unfold take
    rw [if_pos hpending]

theorem take_keeps (server : Server σ) (h : Inv l) : Keeps l (take server l) := by
  rcases take_cases server h with ⟨-, htake⟩ | ⟨-, ⟨l', htake, hkeeps, -⟩ | ⟨htake, hdone⟩ | ⟨htake, -⟩⟩
  · rw [htake]
    exact .rest h
  · rw [htake]
    exact hkeeps
  · rw [htake]
    exact ⟨h, List.prefix_refl _, fun _ => hdone⟩
  · rw [htake]
    exact .refl h nofun

theorem readInput_keeps (server : Server σ) (h : Inv l) (heof : l.frames.eof = false) (read : Read) :
    Keeps l (readInput server l read) := by
  unfold readInput
  dsimp only
  split
  · exact .refl h nofun
  · have htaken := h.taken
    rw [heof] at htaken
    cases read with
    | failed => exact .refl h nofun
    | again => exact .rest h
    | bytes bytes =>
      cases bytes with
      | nil => exact ⟨⟨htaken.ends, h.output, h.bounded⟩, List.prefix_refl _, nofun⟩
      | cons b bs =>
        dsimp only [Frames.push]
        split
        next hpush =>
          split at hpush
          · exact .refl h (by rintro ⟨⟩)
          · cases hpush
        next fs hpush =>
          split at hpush
          · cases hpush
          next hroom =>
            cases hpush
            have hbound := h.bounded
            have hremaining : l.frames.remaining = maxFrame + 1 - l.frames.bytes.length := rfl
            refine ⟨⟨?_, h.output, ?_⟩, List.prefix_append _ _, nofun⟩
            · dsimp only
              rw [heof]
              exact htaken.append _
            · dsimp only
              rw [List.length_append]
              omega

theorem writeOutput_keeps (h : Inv l) (write : Write) : Keeps l (writeOutput l write) := by
  unfold writeOutput
  split
  · exact .refl h nofun
  · exact .refl h nofun
  · exact .rest h
  next n =>
    dsimp only
    have houtput := h.output
    split
    next hall =>
      refine ⟨⟨h.taken, ?_, h.bounded⟩, List.prefix_refl _, nofun⟩
      dsimp only
      rw [List.length_drop] at hall
      rw [houtput, List.drop_nil, List.append_nil, List.take_of_length_le]
      rw [List.length_drop]
      omega
    next hpart =>
      refine ⟨⟨h.taken, ?_, h.bounded⟩, List.prefix_refl _, nofun⟩
      dsimp only
      rw [houtput, List.append_assoc, ← List.drop_drop, List.take_append_drop]

theorem serveEvents_keeps (server : Server σ) (h : Inv l) (r : Round σ) (stdin stdout : Revents) :
    Keeps l (serveEvents server l r stdin stdout) := by
  unfold serveEvents
  dsimp only
  split
  · exact .refl h nofun
  · split
    · exact .refl h nofun
    · have hinput : Keeps l (if (stdinEvents l stdin).ready || (stdinEvents l stdin).hup || (stdinEvents l stdin).err
          then readInput server l r.read else (l, none)) := by
        split
        next hstdin =>
          -- Nothing is reported of an input that has ended.
          have heof : l.frames.eof = false := by
            by_contra hne
            rw [stdinEvents, if_pos (Bool.not_eq_false _ ▸ hne)] at hstdin
            cases hstdin
          exact readInput_keeps server h heof r.read
        · exact .rest h
      split
      next l' e hresult => exact hresult ▸ hinput
      next l' hresult =>
        rw [hresult] at hinput
        split
        · exact hinput.trans (writeOutput_keeps hinput.inv r.write)
        · exact hinput

theorem step_keeps (server : Server σ) (h : Inv l) (r : Round σ) : Keeps l (step server l r) := by
  have htick : Keeps l ({ l with server := r.tick l.server }, none) :=
    ⟨⟨h.taken, h.output, h.bounded⟩, List.prefix_refl _, nofun⟩
  have htake := htick.trans (take_keeps server htick.inv)
  unfold step
  dsimp only
  split
  · exact htick.trans (.refl htick.inv nofun)
  · split
    next l' e hresult => exact hresult ▸ htake
    next l' hresult =>
      rw [hresult] at htake
      split
      · exact htake
      · exact htake.trans (.refl htake.inv (by rintro ⟨⟩))
      · exact htake.trans (serveEvents_keeps server htake.inv r _ _)

theorem run_keeps (server : Server σ) (h : Inv l) (rounds : List (Round σ)) : Keeps l (run server l rounds) := by
  induction rounds generalizing l with
  | nil => exact .rest h
  | cons r rounds ih =>
    have hstep := step_keeps server h r
    unfold run
    split
    next l' e hresult => exact hresult ▸ hstep
    next l' hresult =>
      rw [hresult] at hstep
      exact hstep.trans (ih hstep.inv)

/-! ## A round that fails -/

/-- No call fails, and no descriptor is closed. -/
structure Fair (r : Round σ) : Prop where
  poll : r.poll ≠ .failed
  valid : ∀ stdin stdout, r.poll = .reports stdin stdout → (stdin.nval || stdout.nval) = false
  read : r.read ≠ .failed
  write : r.write ≠ .failed
  progress : r.write ≠ .written 0

/-- No frame of a stream is longer than the limit. -/
def Within (stream : List UInt8) : Prop := ∀ part, part <:+: stream → lineFeed ∉ part → part.length ≤ maxFrame

/-- The input is hung up while the buffer is full, which takes a pending response. -/
structure Stuck (l : Loop σ) (r : Round σ) : Prop where
  running : r.shutdown = false
  reading : l.frames.eof = false
  pending : l.pending ≠ []
  full : l.frames.remaining = 0
  hungUp : ∃ stdin stdout, r.poll = .reports stdin stdout ∧ (stdin.hup || stdin.err) = true ∧
    (stdout.err || stdout.hup) = false

def Fails (out : Loop σ × Option End) : Prop := ∃ error, out.2 = some (.failed error)

theorem not_fails_of_none {out : Loop σ × Option End} (h : out.2 = none) : ¬ Fails out := by
  rintro ⟨error, herror⟩
  rw [h] at herror
  cases herror

theorem not_fails_stopped (l : Loop σ) : ¬ Fails (l, some .stopped) := by
  rintro ⟨error, herror⟩
  cases herror

theorem readInput_fails {read : Read} (hread : read ≠ .failed) :
    Fails (readInput server l read) ↔ l.frames.remaining = 0 := by
  have hcapacity : min l.frames.remaining 4096 = 0 ↔ l.frames.remaining = 0 := by omega
  unfold readInput Fails
  dsimp only
  by_cases hfull : l.frames.remaining = 0
  · rw [if_pos (hcapacity.2 hfull)]
    exact ⟨fun _ => hfull, fun _ => ⟨_, rfl⟩⟩
  · rw [if_neg (mt hcapacity.1 hfull)]
    refine ⟨fun hfails => ?_, fun h => absurd h hfull⟩
    obtain ⟨error, herror⟩ := hfails
    cases read with
    | failed => exact absurd rfl hread
    | again => cases herror
    | bytes bytes =>
      cases bytes with
      | nil => cases herror
      | cons b bs =>
        have hroom : ¬ l.frames.remaining < ((b :: bs).take (min l.frames.remaining 4096)).length := by
          rw [List.length_take]
          omega
        dsimp only [Frames.push] at herror
        rw [if_neg hroom] at herror
        cases herror

theorem writeOutput_none {write : Write} (hwrite : write ≠ .failed) (hprogress : write ≠ .written 0) :
    (writeOutput l write).2 = none := by
  unfold writeOutput
  split
  · exact absurd rfl hwrite
  · exact absurd rfl hprogress
  · rfl
  · rfl

/-- With the buffer full, only a hang-up or an error is reported of the input. -/
theorem stdinEvents_full (hfull : l.frames.remaining = 0) (stdin : Revents) :
    ((stdinEvents l stdin).ready || (stdinEvents l stdin).hup || (stdinEvents l stdin).err) = true ↔
      l.frames.eof = false ∧ (stdin.hup || stdin.err) = true := by
  unfold stdinEvents
  rw [hfull]
  cases l.frames.eof <;> simp [Revents.quiet]

/-- Of the input, a hang-up with the buffer full fails, and nothing else. -/
theorem readEvents_fails (server : Server σ) (l : Loop σ) (hr : Fair r) (stdin : Revents) :
    Fails (if (stdinEvents l stdin).ready || (stdinEvents l stdin).hup || (stdinEvents l stdin).err then
        readInput server l r.read else (l, none)) ↔
      l.frames.remaining = 0 ∧ l.frames.eof = false ∧ (stdin.hup || stdin.err) = true := by
  by_cases hfull : l.frames.remaining = 0
  · by_cases hstdin : ((stdinEvents l stdin).ready || (stdinEvents l stdin).hup || (stdinEvents l stdin).err) = true
    · rw [if_pos hstdin, readInput_fails hr.read]
      exact ⟨fun _ => ⟨hfull, (stdinEvents_full hfull stdin).1 hstdin⟩, fun _ => hfull⟩
    · rw [if_neg hstdin]
      refine ⟨fun hfails => absurd hfails (not_fails_of_none rfl), fun h => ?_⟩
      exact absurd ((stdinEvents_full hfull stdin).2 h.2) hstdin
  · refine ⟨fun hfails => ?_, fun h => absurd h.1 hfull⟩
    split at hfails
    · exact absurd ((readInput_fails hr.read).1 hfails) hfull
    · exact absurd hfails (not_fails_of_none rfl)

theorem not_fails_writeEvents (hr : Fair r) (stdout : Revents) (l : Loop σ) :
    ¬ Fails (if l.pending ≠ [] && stdout.ready then writeOutput l r.write else (l, none)) := by
  split
  · exact not_fails_of_none (writeOutput_none hr.write hr.progress)
  · exact not_fails_of_none rfl

theorem serveEvents_fails {stdin stdout : Revents} (hr : Fair r) (hpoll : r.poll = .reports stdin stdout) :
    Fails (serveEvents server l r stdin stdout) ↔
      l.frames.remaining = 0 ∧ l.frames.eof = false ∧ (stdin.hup || stdin.err) = true ∧
        (stdout.err || stdout.hup) = false := by
  have hnval : ((stdinEvents l stdin).nval || stdout.nval) = false := by
    have hvalid := hr.valid stdin stdout hpoll
    rw [Bool.or_eq_false_iff] at hvalid ⊢
    refine ⟨?_, hvalid.2⟩
    unfold stdinEvents
    split
    · rfl
    · exact hvalid.1
  unfold serveEvents
  dsimp only
  rw [if_neg (by rw [hnval]; exact Bool.false_ne_true)]
  by_cases hout : (stdout.err || stdout.hup) = true
  · rw [if_pos hout, hout]
    exact ⟨fun hfails => absurd hfails (not_fails_stopped l), fun h => absurd h.2.2.2 (by decide)⟩
  · have hread := readEvents_fails server l hr stdin
    rw [if_neg hout]
    generalize (if (stdinEvents l stdin).ready || (stdinEvents l stdin).hup || (stdinEvents l stdin).err then
      readInput server l r.read else (l, none)) = out at hread ⊢
    rw [Bool.eq_false_iff.2 hout, eq_self, and_true, ← hread]
    rcases out with ⟨l', _ | e⟩
    · exact iff_of_false (not_fails_writeEvents hr stdout l') (not_fails_of_none rfl)
    · rfl

theorem Within.of_prefix {stream stream' : List UInt8} (h : Within stream') (hpre : stream <+: stream') :
    Within stream :=
  fun part hpart => h part (hpart.trans hpre.isInfix)

/-- A round whose calls do not fail fails by a hang-up with the buffer full, and by nothing else. -/
theorem step_fails (h : Inv l) (hr : Fair r) (hwithin : Within l.received) : Fails (step server l r) ↔ Stuck l r := by
  have htick : Inv { l with server := r.tick l.server } := ⟨h.taken, h.output, h.bounded⟩
  unfold step
  dsimp only
  by_cases hstop : (r.shutdown || l.frames.eof && r.late) = true
  · rw [if_pos hstop]
    refine ⟨fun hfails => absurd hfails (not_fails_stopped _), fun hstuck => ?_⟩
    rw [hstuck.running, hstuck.reading] at hstop
    cases hstop
  · rw [if_neg hstop]
    rcases take_cases server htick with ⟨hpending, htake⟩ | ⟨hpending, htake⟩
    · -- Something is pending: the buffer is as it was.
      rw [htake]
      dsimp only
      split
      next hpoll =>
        refine ⟨fun hfails => absurd hfails (not_fails_of_none rfl), fun hstuck => ?_⟩
        obtain ⟨stdin, stdout, hpoll', -⟩ := hstuck.hungUp
        rw [hpoll] at hpoll'
        cases hpoll'
      next hpoll => exact absurd hpoll hr.poll
      next stdin stdout hpoll =>
        rw [serveEvents_fails hr hpoll]
        constructor
        · rintro ⟨hfull, heof, hhup, hout⟩
          have hrunning : r.shutdown = false := by
            rw [Bool.or_eq_true, not_or] at hstop
            exact Bool.eq_false_iff.2 hstop.1
          exact ⟨hrunning, heof, hpending, hfull, stdin, stdout, hpoll, hhup, hout⟩
        · intro hstuck
          obtain ⟨stdin', stdout', hpoll', hhup, hout⟩ := hstuck.hungUp
          rw [hpoll] at hpoll'
          cases hpoll'
          exact ⟨hstuck.full, hstuck.reading, hhup, hout⟩
    · -- Nothing is pending: a frame is taken, and there is room.
      refine ⟨fun hfails => ?_, fun hstuck => absurd hpending hstuck.pending⟩
      rcases htake with ⟨l', htake, -, -, hroom⟩ | ⟨htake, -⟩ | ⟨htake, hopen, hlong⟩
      · rw [htake] at hfails
        dsimp only at hfails
        split at hfails
        · exact absurd hfails (not_fails_of_none rfl)
        next hpoll => exact absurd hpoll hr.poll
        next stdin stdout hpoll =>
          have hfull := ((serveEvents_fails hr hpoll).1 hfails).1
          unfold Frames.remaining at hfull
          omega
      · rw [htake] at hfails
        obtain ⟨_, herror⟩ := hfails
        cases herror
      · obtain ⟨front, hfront⟩ := h.taken.exists_front
        have hshort := hwithin l.frames.bytes (hfront ▸ List.suffix_append front _ |>.isInfix) hopen
        exact absurd hlong (Nat.not_lt.2 hshort)

theorem run_fails (h : Inv l) (rounds : List (Round σ)) (hrounds : ∀ r ∈ rounds, Fair r)
    (hwithin : Within (run server l rounds).1.received) :
    Fails (run server l rounds) ↔ ∃ before r after, rounds = before ++ r :: after ∧
      (run server l before).2 = none ∧ Stuck (run server l before).1 r := by
  induction rounds generalizing l with
  | nil =>
    refine ⟨fun hfails => absurd hfails (not_fails_of_none rfl), fun ⟨before, r, after, hsplit, _⟩ => ?_⟩
    exact absurd hsplit.symm (by simp)
  | cons r rounds ih =>
    have hr := hrounds r List.mem_cons_self
    have hrest := fun r' hr' => hrounds r' (List.mem_cons_of_mem r hr')
    have hkeeps := step_keeps server h r
    have hwithin' := hwithin.of_prefix (run_keeps server h (r :: rounds)).received
    have hstep : Fails (step server l r) ↔ Stuck l r := step_fails h hr hwithin'
    cases hresult : step server l r with
    | mk l' result =>
      cases result with
      | some e =>
        have hrun : ∀ more, run server l (r :: more) = (l', some e) := by
          intro more
          rw [run, hresult]
        rw [hrun, ← hresult, hstep]
        constructor
        · exact fun hstuck => ⟨[], r, rounds, rfl, rfl, hstuck⟩
        · rintro ⟨before, r', after, hsplit, hnone, hstuck⟩
          cases before with
          | nil => exact (List.cons.inj hsplit).1 ▸ hstuck
          | cons r'' before =>
            obtain ⟨rfl, -⟩ := List.cons.inj hsplit
            rw [hrun] at hnone
            cases hnone
      | none =>
        have hrun : ∀ more, run server l (r :: more) = run server l' more := by
          intro more
          rw [run, hresult]
        have hfree : ¬ Stuck l r := by
          rw [← hstep, hresult]
          exact not_fails_of_none rfl
        rw [hresult] at hkeeps
        rw [hrun] at hwithin ⊢
        rw [ih hkeeps.inv hrest hwithin]
        constructor
        · rintro ⟨before, r', after, hsplit, hstuck⟩
          exact ⟨r :: before, r', after, by rw [hsplit]; rfl, by rwa [hrun]⟩
        · rintro ⟨before, r', after, hsplit, hnone, hstuck⟩
          cases before with
          | nil => exact absurd ((List.cons.inj hsplit).1 ▸ hstuck) hfree
          | cons r'' before =>
            obtain ⟨rfl, hrounds'⟩ := List.cons.inj hsplit
            rw [hrun] at hnone hstuck
            exact ⟨before, r', after, hrounds', hnone, hstuck⟩

/-! ## What the loop promises -/

/-- Each frame is handled once, in order; what is written is part of the responses, and all of them at the end; the
buffer is bounded; and a client within the limit does not make the loop fail. -/
structure Promises (server : Server σ) (s : σ) (rounds : List (Round σ)) : Prop where
  handled : (run server (.start s) rounds).1.handled <+:
    frames lineFeed (run server (.start s) rounds).1.frames.eof (run server (.start s) rounds).1.received
  sent : (run server (.start s) rounds).1.sent <+: joined lineFeed (run server (.start s) rounds).1.responses
  bounded : (run server (.start s) rounds).1.frames.bytes.length ≤ maxFrame + 1
  done : (run server (.start s) rounds).2 = some .done → Complete (run server (.start s) rounds).1
  unfailing : (∀ r ∈ rounds, Fair r) → Within (run server (.start s) rounds).1.received →
    ¬ Fails (run server (.start s) rounds)

theorem serve_iff (server : Server σ) (s : σ) (rounds : List (Round σ)) :
    Promises server s rounds ↔
      ((∀ r ∈ rounds, Fair r) → Within (run server (.start s) rounds).1.received →
        ∀ before r after, rounds = before ++ r :: after → (run server (.start s) before).2 = none →
          ¬ Stuck (run server (.start s) before).1 r) := by
  have hkeeps := run_keeps server (inv_start s) rounds
  constructor
  · intro h hrounds hwithin before r after hsplit hnone hstuck
    refine h.unfailing hrounds hwithin ?_
    rw [run_fails (inv_start s) rounds hrounds hwithin]
    exact ⟨before, r, after, hsplit, hnone, hstuck⟩
  · intro h
    obtain ⟨more, hmore, -⟩ := hkeeps.inv.taken.frames
    refine ⟨⟨more, hmore.symm⟩, ⟨_, hkeeps.inv.output.symm⟩, hkeeps.inv.bounded, hkeeps.done, ?_⟩
    intro hrounds hwithin hfails
    rw [run_fails (inv_start s) rounds hrounds hwithin] at hfails
    obtain ⟨before, r, after, hsplit, hnone, hstuck⟩ := hfails
    exact h hrounds hwithin before r after hsplit hnone hstuck

/-! ## A client that writes ahead -/

/-- A server that answers every frame that is not blank. -/
def answering : Server Unit where
  handle _ frame := ((), if frame = [] then none else some [0x7B, 0x7D])
  handle_length _ frame response h := by
    split at h
    · cases h
    · cases h
      decide
  hasActive _ := false
  close s := s

/-- The output is not ready. -/
def reading (stdin : Revents) (read : List UInt8) : Round Unit where
  tick s := s
  shutdown := false
  late := false
  poll := .reports stdin .quiet
  read := .bytes read
  write := .again

def Revents.readable : Revents := ⟨true, false, false, false⟩

def Revents.hungUp : Revents := ⟨false, true, false, false⟩

theorem reading_fair {stdin : Revents} (h : stdin.nval = false) (read : List UInt8) : Fair (reading stdin read) where
  poll := nofun
  valid stdin' stdout hpoll := by
    cases hpoll
    rw [h]
    rfl
  read := nofun
  write := nofun
  progress := nofun

/-- A response is pending, and `n` blank frames are ahead of it. -/
structure Ahead (l : Loop Unit) (n : Nat) : Prop where
  pending : l.pending ≠ []
  reading : l.frames.eof = false
  bytes : l.frames.bytes.length = n
  received : l.received = 0x78 :: lineFeed :: .replicate n lineFeed

theorem step_ahead {l : Loop Unit} {n m : Nat} (h : Ahead l n) (hm : m + 1 ≤ 4096)
    (hroom : n + (m + 1) ≤ maxFrame + 1) :
    ∃ l', step answering l (reading .readable (.replicate (m + 1) lineFeed)) = (l', none) ∧ Ahead l' (n + (m + 1)) := by
  have hremaining : l.frames.remaining = maxFrame + 1 - n := by rw [Frames.remaining, h.bytes]
  have htake : (List.replicate (m + 1) lineFeed).take (min l.frames.remaining 4096) = .replicate (m + 1) lineFeed :=
    List.take_of_length_le (by rw [List.length_replicate]; omega)
  obtain ⟨l', hinput, hahead⟩ : ∃ l', readInput answering l (.bytes (.replicate (m + 1) lineFeed)) = (l', none) ∧
      Ahead l' (n + (m + 1)) := by
    unfold readInput
    rw [if_neg (by omega), List.replicate_succ]
    dsimp only [Frames.push]
    rw [← List.replicate_succ, htake, List.length_replicate, if_neg (by omega)]
    refine ⟨_, rfl, h.pending, h.reading, ?_, ?_⟩
    · dsimp only
      rw [List.length_append, List.length_replicate, h.bytes]
    · dsimp only
      rw [h.received, List.cons_append, List.cons_append, List.replicate_append_replicate]
  have hready : 0 < l.frames.remaining := by omega
  refine ⟨l', ?_, hahead⟩
  simp [step, take, serveEvents, stdinEvents, reading, Revents.readable, Revents.quiet, h.pending, h.reading, hready, hinput]

theorem run_ahead {m : Nat} (hm : m + 1 ≤ 4096) (k : Nat) {l : Loop Unit} {n : Nat} (h : Ahead l n)
    (hroom : n + (m + 1) * k ≤ maxFrame + 1) (more : List (Round Unit)) : ∃ l', Ahead l' (n + (m + 1) * k) ∧
      run answering l (.replicate k (reading .readable (.replicate (m + 1) lineFeed)) ++ more) =
        run answering l' more := by
  induction k generalizing l n with
  | zero => exact ⟨l, h, rfl⟩
  | succ k ih =>
    rw [Nat.mul_succ] at hroom
    obtain ⟨l₁, hstep, h₁⟩ := step_ahead h hm (by omega)
    obtain ⟨l₂, h₂, hrun⟩ := ih h₁ (by omega)
    refine ⟨l₂, by rwa [Nat.mul_succ, Nat.add_comm _ (m + 1), ← Nat.add_assoc], ?_⟩
    rw [List.replicate_succ, List.cons_append, run, hstep]
    exact hrun

theorem within_ahead (n : Nat) : Within (0x78 :: lineFeed :: .replicate n lineFeed) := by
  intro part hpart hopen
  have hall : ∀ b ∈ part, b = 0x78 := by
    intro b hb
    have hmem := hpart.subset hb
    rw [List.mem_cons, List.mem_cons, List.mem_replicate] at hmem
    rcases hmem with h | h | ⟨-, h⟩
    · exact h
    · exact absurd (h ▸ hb) hopen
    · exact absurd (h ▸ hb) hopen
  have hcount : part.count 0x78 ≤ 1 := by
    have h := hpart.sublist.count_le 0x78
    rwa [List.count_cons_self, List.count_cons_of_ne (by decide), List.count_replicate, if_neg (by decide)] at h
  rw [List.count_eq_length.2 fun b hb => (hall b hb).symm] at hcount
  exact Nat.le_trans hcount (by decide)

/-- A request, as many blank frames as the buffer holds, and the end of the input, before the response is read. -/
def writtenAhead : List (Round Unit) :=
  reading .readable [0x78, lineFeed] :: reading .quiet [] ::
    (.replicate 16 (reading .readable (.replicate (4095 + 1) lineFeed)) ++
      [reading .readable (.replicate (0 + 1) lineFeed), reading .hungUp []])

theorem writtenAhead_fails : ¬ Promises answering () writtenAhead := by
  intro h
  have hfair : ∀ r ∈ writtenAhead, Fair r := by
    intro r hr
    simp only [writtenAhead, List.mem_cons, List.mem_append, List.mem_replicate, List.not_mem_nil, or_false] at hr
    rcases hr with rfl | rfl | ⟨-, rfl⟩ | rfl | rfl <;> exact reading_fair rfl _
  obtain ⟨l₀, h₀, hrun₀⟩ : ∃ l, Ahead l 0 ∧ ∀ more, run answering (.start ())
      (reading .readable [0x78, lineFeed] :: reading .quiet [] :: more) = run answering l more :=
    ⟨_, ⟨by decide, rfl, rfl, rfl⟩, fun _ => rfl⟩
  obtain ⟨l₁, h₁, hrun₁⟩ := run_ahead (m := 4095) (by omega) 16 h₀ (by unfold maxFrame; omega)
    [reading .readable (.replicate (0 + 1) lineFeed), reading .hungUp []]
  obtain ⟨l₂, hstep₂, h₂⟩ := step_ahead (m := 0) h₁ (by omega) (by unfold maxFrame; omega)
  have hfull : l₂.frames.remaining = 0 := by
    rw [Frames.remaining, h₂.bytes]
    unfold maxFrame
    omega
  have hlast : run answering l₂ [reading .hungUp []] = (l₂, some (.failed "stdin_buffer_limit_exceeded")) := by
    simp [run, step, take, serveEvents, stdinEvents, readInput, reading, Revents.hungUp, Revents.quiet, h₂.pending,
      h₂.reading,
      hfull]
  have hrun : run answering (.start ()) writtenAhead = (l₂, some (.failed "stdin_buffer_limit_exceeded")) := by
    rw [writtenAhead, hrun₀, hrun₁, run, hstep₂]
    exact hlast
  refine h.unfailing hfair ?_ ⟨_, congrArg Prod.snd hrun⟩
  rw [hrun, h₂.received]
  exact within_ahead _

end CocoaWay.ResearchMcp
