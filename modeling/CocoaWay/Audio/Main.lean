import CocoaWay.Audio.Player

/-!
# What is heard of the guest's sound

* `Step`, `step_cases` : what any step does;
* `Delivered`, `Held`, `Whole`, `Begun` : what every step keeps of the bytes, the buffers, their lengths and the queue;
* `Promises`, `plays_promises` : what the worker promises, kept when the end of the stream is read after everything was played;
  `short_stream_silent` : a stream that ends too early.
-/

namespace CocoaWay.Audio
open Lib

variable {s s' : State} {e : Event} {c : Call} {q : Queue}

/-! ## Steps -/

theorem drop_stop (q : Queue) : q.stop.drop = q.drop := by
  have hstop : q.stop.stop = q.stop := by
    unfold Queue.stop
    by_cases hstarted : q.started = true
    · rw [if_pos hstarted]
      exact if_neg nofun
    · rw [if_neg hstarted, if_neg hstarted]
  unfold Queue.drop
  rw [hstop]

theorem finish_stop (s : State) (result : Except String Unit) :
    ({ s with queue := s.queue.stop } : State).finish result = s.finish result := by
  unfold State.finish
  dsimp only
  rw [drop_stop]

/-- The worker is not done. -/
def Control.Runs : Control → Prop
  | .finished _ => False
  | _ => True

/-- What a step can do, by where the worker is. -/
inductive Step (s : State) (e : Event) : State → Prop
  | requestStop : Step s e { s with stop := true }
  | send (bytes : List UInt8) (open' : s.closed = false) :
    Step s e { s with sent := s.sent ++ bytes, unread := s.unread ++ bytes }
  | close : Step s e { s with closed := true }
  | complete {buffer} (started : s.queue.started = true) (pending : buffer ∈ s.queue.pending) :
    Step s e { s with
      queue := { s.queue with pending := s.queue.pending.erase buffer }
      completed := s.completed ++ [buffer]
      log := .finish buffer :: s.log }
  | create (at' : s.control = .creating) : Step s e { s with control := .allocating [] }
  | notCreated {message} (at' : s.control = .creating) : Step s e { s with control := .finished (.error message) }
  | allocate {buffers buffer} (at' : s.control = .allocating buffers) (fresh : buffer ∉ buffers) :
    Step s e { s with control := .allocating (buffers ++ [buffer]) }
  | fail {message} (runs : s.control.Runs) : Step s e (s.finish (.error message))
  | prime {buffers} (at' : s.control = .allocating buffers) : Step s e { s with control := .priming buffers }
  | fill {buffer rest} (at' : s.control = .priming (buffer :: rest)) :
    Step s e { s with control := .filling buffer [] (.prime rest) }
  | primed (at' : s.control = .priming []) : Step s e { s with control := .starting }
  | read {buffer data next} (at' : s.control = .filling buffer data next) (room : data.length < bufferBytes)
    (notStopped : s.stop = false) : Step s e { s with control := .reading buffer data next }
  | fillDone {buffer data next} (at' : s.control = .filling buffer data next)
    (done : ¬(data.length < bufferBytes ∧ s.stop = false)) : Step s e { s with control := .filled buffer data next }
  | again {buffer data next} (at' : s.control = .reading buffer data next) :
    Step s e { s with control := .filling buffer data next }
  | eof {buffer data next} (at' : s.control = .reading buffer data next) (none : s.unread = []) (closed : s.closed = true)
    (event : e = .call (.read (.bytes 0))) :
    Step s e { s with control := .filled buffer data next }
  | take {buffer data next n} (at' : s.control = .reading buffer data next) (some : n ≠ 0) (unread : n ≤ s.unread.length)
    (room : n ≤ bufferBytes - data.length) : Step s e { s with
      unread := s.unread.drop n
      control := .filling buffer (data ++ s.unread.take n) next
      log := .use buffer :: s.log }
  | done (at' : (∃ buffer next, s.control = .filled buffer [] next) ∨ s.control = .playing ∧ s.stop = true) :
    Step s e (s.finish (.ok ()))
  | filled {buffer data next} (at' : s.control = .filled buffer data next) (some : data ≠ []) :
    Step s e { s with control := .enqueueing buffer data next }
  | enqueue {buffer data next control bytes statuses} (at' : s.control = .enqueueing buffer data next)
    (next' : (∃ rest, next = .prime rest ∧ control = .priming rest) ∨ next = .play ∧ control = .playing) : Step s e { s with
      queue := s.queue.enqueue buffer data
      bytesPlayed := bytes
      statuses := statuses
      control := control
      log := .lend buffer :: s.log }
  | start {statuses} (at' : s.control = .starting) :
    Step s e { s with queue := s.queue.start, statuses := statuses, control := .playing }
  | poll (at' : s.control = .playing) (notStopped : s.stop = false) : Step s e { s with control := .receiving }
  | timeout (at' : s.control = .receiving) : Step s e { s with control := .playing }
  | receive {buffer rest} (at' : s.control = .receiving) (first : s.completed = buffer :: rest) : Step s e { s with
      completed := rest
      control := .filling buffer [] .play
      log := .accept buffer :: s.log }

theorem readStream_cases {buffer data next r} (hat : s.control = .reading buffer data next)
    (h : readStream s buffer data next r = some s') : Step s (.call (.read r)) s' := by
  unfold readStream at h
  split at h
  next n =>
    split at h
    next hzero =>
      split at h
      next hend =>
        cases h
        exact .eof hat hend.1 hend.2 (by rw [hzero])
      · cases h
    next hne =>
      split at h
      next hn => cases h; exact .take hat hne hn.1 hn.2
      · cases h
  · cases h
    exact .fail (by rw [hat]; trivial)
  · cases h
    exact .again hat

theorem enqueue_cases {buffer data next status late} (hat : s.control = .enqueueing buffer data next) :
    Step s e (enqueue s buffer data next status late) := by
  unfold enqueue
  split
  · dsimp only
    cases next with
    | prime rest => exact .enqueue hat (.inl ⟨rest, rfl, rfl⟩)
    | play =>
      cases late
      · exact .enqueue hat (.inr ⟨rfl, rfl⟩)
      · exact .enqueue hat (.inr ⟨rfl, rfl⟩)
  · exact .fail (by rw [hat]; trivial)

theorem call_cases (h : call s c = some s') : Step s (.call c) s' := by
  unfold call at h
  cases c with
  | newOutput status =>
    dsimp only at h
    split at h
    next hat =>
      split at h
      · cases h; exact .create hat
      · cases h; exact .notCreated hat
    · cases h
  | allocateBuffer status buffer =>
    dsimp only at h
    split at h
    next buffers hat =>
      split at h
      · cases h
      · split at h
        · cases h
          exact .fail (by rw [hat]; trivial)
        · split at h
          · cases h
          next hfresh => cases h; exact .allocate hat hfresh
    · cases h
  | none =>
    dsimp only at h
    split at h
    next buffers hat =>
      split at h
      · cases h; exact .prime hat
      · cases h
    next hat => cases h; exact .fill hat
    next hat => cases h; exact .primed hat
    next hat =>
      split at h
      next hread => cases h; exact .read hat hread.1 hread.2
      next hdone => cases h; exact .fillDone hat hdone
    next buffer data next hat =>
      split at h
      next hempty =>
        rw [List.eq_nil_of_length_eq_zero hempty] at hat
        split at h
        · cases h
          exact .done (.inl ⟨_, _, hat⟩)
        · cases h
          rw [finish_stop]
          exact .done (.inl ⟨_, _, hat⟩)
      next hne => cases h; exact .filled hat (fun hnil => hne (by rw [hnil]; rfl))
    next hat =>
      split at h
      next hstop =>
        cases h
        rw [finish_stop]
        exact .done (.inr ⟨hat, hstop⟩)
      next hstop => cases h; exact .poll hat (by simpa using hstop)
    · cases h
  | read result =>
    dsimp only at h
    split at h
    next hat => exact readStream_cases hat h
    · cases h
  | enqueueBuffer status =>
    dsimp only at h
    split at h
    next hat => cases h; exact enqueue_cases hat
    · cases h
  | enqueueBufferLate status =>
    dsimp only at h
    split at h
    next hat => cases h; exact enqueue_cases hat
    · cases h
  | start status =>
    dsimp only at h
    split at h
    next hat =>
      split at h
      · cases h; exact .start hat
      · cases h
        exact .fail (by rw [hat]; trivial)
    · cases h
  | recv result =>
    dsimp only at h
    split at h
    next hat => cases h; exact .timeout hat
    next hat hcompleted =>
      split at h
      next heq => cases h; subst heq; exact .receive hat hcompleted
      · cases h
    · cases h

theorem step_cases (h : step s e = some s') : Step s e s' := by
  cases e with
  | requestStop => cases h; exact .requestStop
  | send bytes =>
    unfold step at h
    dsimp only at h
    split at h
    · cases h
    next hopen => cases h; exact .send bytes (by simpa using hopen)
  | close => cases h; exact .close
  | complete buffer =>
    unfold step at h
    dsimp only at h
    split at h
    next hcomplete => cases h; exact .complete hcomplete.1 hcomplete.2
    · cases h
  | call c => exact call_cases h

/-! ## The bytes -/

/-- The bytes that are read and not enqueued. -/
def Control.inFlight : Control → List UInt8
  | .filling _ data _ => data
  | .reading _ data _ => data
  | .filled _ data _ => data
  | .enqueueing _ data _ => data
  | _ => []

def Queue.bytes (q : Queue) : List UInt8 := q.enqueued.flatMap Prod.snd

@[simp] theorem enqueued_cancel (q : Queue) : q.cancel.enqueued = q.enqueued := rfl

@[simp] theorem enqueued_stop (q : Queue) : q.stop.enqueued = q.enqueued := by
  unfold Queue.stop
  split <;> rfl

@[simp] theorem enqueued_drop (q : Queue) : q.drop.enqueued = q.enqueued := by
  unfold Queue.drop
  rw [enqueued_cancel, enqueued_stop]

theorem bytes_enqueue (q : Queue) (buffer : Buffer) (data : List UInt8) :
    (q.enqueue buffer data).bytes = q.bytes ++ data := by
  unfold Queue.bytes Queue.enqueue
  rw [List.flatMap_append, List.flatMap_singleton]

theorem bytes_drop (q : Queue) : q.drop.bytes = q.bytes := by
  unfold Queue.bytes
  rw [enqueued_drop]

/-- The worker ended with an error. -/
def Control.Failed : Control → Prop
  | .finished (.error _) => True
  | _ => False

/-- What is enqueued is what the guest sent, up to the bytes in flight and those that are not read yet. -/
def Delivered (s : State) : Prop :=
  s.queue.bytes <+: s.sent ∧ (¬s.control.Failed → s.queue.bytes ++ s.control.inFlight ++ s.unread = s.sent)

variable {before after : Control}

theorem Delivered.moves (h : Delivered s) (hat : s.control = before) (hrun : ¬before.Failed)
    (hflight : after.inFlight = before.inFlight) : Delivered { s with control := after } := by
  have hbytes := h.2 (by rw [hat]; exact hrun)
  refine ⟨h.1, fun _ => ?_⟩
  dsimp only
  rw [hflight, ← hat, hbytes]

theorem step_delivered (h : Step s e s') (hd : Delivered s) : Delivered s' := by
  cases h with
  | requestStop => exact hd
  | send bytes hopen =>
    refine ⟨hd.1.trans (List.prefix_append _ _), fun hrun => ?_⟩
    dsimp only at hrun ⊢
    rw [← List.append_assoc, hd.2 hrun]
  | close => exact hd
  | complete => exact hd
  | create hat => exact hd.moves hat id rfl
  | notCreated hat => exact ⟨hd.1, fun hrun => absurd trivial hrun⟩
  | allocate hat => exact hd.moves hat id rfl
  | fail hruns =>
    refine ⟨?_, fun hrun => absurd trivial hrun⟩
    unfold State.finish
    rw [bytes_drop]
    exact hd.1
  | prime hat => exact hd.moves hat id rfl
  | fill hat => exact hd.moves hat id rfl
  | primed hat => exact hd.moves hat id rfl
  | read hat => exact hd.moves hat id rfl
  | fillDone hat => exact hd.moves hat id rfl
  | again hat => exact hd.moves hat id rfl
  | eof hat => exact hd.moves hat id rfl
  | @take buffer data next n hat =>
    have hbytes := hd.2 (by rw [hat]; exact id)
    rw [hat] at hbytes
    refine ⟨hd.1, fun _ => ?_⟩
    show s.queue.bytes ++ (data ++ s.unread.take n) ++ s.unread.drop n = s.sent
    rw [← hbytes, List.append_assoc, List.append_assoc, List.take_append_drop, ← List.append_assoc]
    rfl
  | done hat =>
    have hflight : ¬s.control.Failed ∧ s.control.inFlight = [] := by
      obtain ⟨buffer, next, hat⟩ | ⟨hat, -⟩ := hat
      · rw [hat]
        exact ⟨id, rfl⟩
      · rw [hat]
        exact ⟨id, rfl⟩
    have hbytes := hd.2 hflight.1
    rw [hflight.2] at hbytes
    unfold State.finish
    refine ⟨?_, fun _ => ?_⟩
    · rw [bytes_drop]
      exact hd.1
    · dsimp only
      rw [bytes_drop]
      exact hbytes
  | filled hat => exact hd.moves hat id rfl
  | @enqueue buffer data next control _ _ hat hnext =>
    have hbytes := hd.2 (by rw [hat]; exact id)
    rw [hat] at hbytes
    have hflight : control.inFlight = [] := by
      obtain ⟨rest, -, rfl⟩ | ⟨-, rfl⟩ := hnext <;> rfl
    unfold Delivered
    dsimp only
    rw [bytes_enqueue, hflight, List.append_nil, ← hbytes]
    exact ⟨List.prefix_append _ _, fun _ => rfl⟩
  | start hat => exact hd.moves hat id rfl
  | poll hat => exact hd.moves hat id rfl
  | timeout hat => exact hd.moves hat id rfl
  | receive hat => exact hd.moves hat id rfl

/-! ## The buffers -/

def Next.rest : Next → List Buffer
  | .prime rest => rest
  | .play => []

/-- The buffers that the worker fills, or is still to fill first. -/
def Control.held : Control → List Buffer
  | .allocating buffers => buffers
  | .priming rest => rest
  | .filling buffer _ next => buffer :: next.rest
  | .reading buffer _ next => buffer :: next.rest
  | .filled buffer _ next => buffer :: next.rest
  | .enqueueing buffer _ next => buffer :: next.rest
  | _ => []

/-- The buffers are not all allocated. -/
def Control.Setup : Control → Prop
  | .creating => True
  | .allocating _ => True
  | _ => False

/-- The buffers that are not back from the queue. -/
def Queue.lent (q : Queue) : List Buffer := q.cancelled ++ q.pending

theorem lent_cancel (q : Queue) : q.cancel.lent = q.lent := List.append_nil _

theorem lent_stop (q : Queue) : q.stop.lent = q.lent := by
  unfold Queue.stop
  split
  · exact lent_cancel q
  · rfl

theorem lent_drop (q : Queue) : q.drop.lent = q.lent := (lent_cancel q.stop).trans (lent_stop q)

theorem lent_enqueue (q : Queue) (buffer : Buffer) (data : List UInt8) :
    (q.enqueue buffer data).lent = q.lent ++ [buffer] := (List.append_assoc _ _ _).symm

structure Held (s : State) : Prop where
  lending : Lending s.queue.lent s.completed s.log
  home : ∀ b ∈ s.control.held, place b s.log = .home
  nodup : s.control.held.Nodup
  fresh : s.control.Setup → s.log = []

theorem Held.moves (h : Held s) (hat : s.control = before)
    (hheld : after.held.Sublist before.held) (hsetup : ¬after.Setup) : Held { s with control := after } where
  lending := h.lending
  home b hb := h.home b (by rw [hat]; exact hheld.subset hb)
  nodup := (hat ▸ h.nodup).sublist hheld
  fresh hcontra := absurd hcontra hsetup

theorem Held.finish (h : Held s) (result : Except String Unit) : Held (s.finish result) where
  lending := by
    unfold State.finish
    rw [lent_drop]
    exact h.lending
  home := nofun
  nodup := .nil
  fresh := nofun

theorem step_held (h : Step s e s') (hh : Held s) : Held s' := by
  cases h with
  | requestStop => exact ⟨hh.lending, hh.home, hh.nodup, hh.fresh⟩
  | send => exact ⟨hh.lending, hh.home, hh.nodup, hh.fresh⟩
  | close => exact ⟨hh.lending, hh.home, hh.nodup, hh.fresh⟩
  | @complete buffer _ hpending =>
    have hmem : buffer ∈ s.queue.lent := List.mem_append_right _ hpending
    have hnot : buffer ∉ s.queue.cancelled := fun hmem' =>
      (List.nodup_append.1 hh.lending.lent_nodup).2.2 buffer hmem' buffer hpending rfl
    have hplace := (hh.lending.mem_lent buffer).1 hmem
    refine ⟨?_, fun b hb => ?_, hh.nodup, fun hsetup => ?_⟩
    · have hlending := hh.lending.finish hmem
      unfold Queue.lent at hlending ⊢
      rw [List.erase_append_right _ hnot] at hlending
      exact hlending
    · have hhome := hh.home b hb
      rw [place_finish_of_ne _]
      · exact hhome
      · rintro rfl
        rw [hplace] at hhome
        cases hhome
    · rw [hh.fresh hsetup] at hplace
      cases hplace
  | create hat => exact ⟨hh.lending, nofun, .nil, fun _ => hh.fresh (by rw [hat]; trivial)⟩
  | notCreated hat => exact hh.moves hat (List.nil_sublist _) id
  | @allocate buffers buffer hat hfresh =>
    have hlog := hh.fresh (by rw [hat]; trivial)
    have hnodup := hh.nodup
    rw [hat] at hnodup
    refine ⟨hh.lending, fun b _ => ?_, ?_, fun _ => hlog⟩
    · dsimp only
      rw [hlog]
      rfl
    · show (buffers ++ [buffer]).Nodup
      rw [← List.concat_eq_append]
      exact hnodup.concat hfresh
  | fail => exact hh.finish _
  | prime hat => exact hh.moves hat (List.Sublist.refl _) id
  | fill hat => exact hh.moves hat (List.Sublist.refl _) id
  | primed hat => exact hh.moves hat (List.Sublist.refl _) id
  | read hat => exact hh.moves hat (List.Sublist.refl _) id
  | fillDone hat => exact hh.moves hat (List.Sublist.refl _) id
  | again hat => exact hh.moves hat (List.Sublist.refl _) id
  | eof hat => exact hh.moves hat (List.Sublist.refl _) id
  | @take buffer data next n hat =>
    have hhome := hh.home
    have hnodup := hh.nodup
    rw [hat] at hhome hnodup
    exact ⟨hh.lending.use (hhome buffer List.mem_cons_self), hhome, hnodup, nofun⟩
  | done => exact hh.finish _
  | filled hat => exact hh.moves hat (List.Sublist.refl _) id
  | @enqueue buffer data next control _ _ hat hnext =>
    have hhome := hh.home
    have hnodup := hh.nodup
    rw [hat] at hhome hnodup
    obtain ⟨hnot, hrest⟩ := List.nodup_cons.1 hnodup
    have hheld : control.held = next.rest ∧ ¬control.Setup := by
      obtain ⟨rest, rfl, rfl⟩ | ⟨rfl, rfl⟩ := hnext
      · exact ⟨rfl, id⟩
      · exact ⟨rfl, id⟩
    refine ⟨?_, fun b hb => ?_, ?_, fun hsetup => absurd hsetup hheld.2⟩
    · dsimp only
      rw [lent_enqueue]
      exact hh.lending.lend (hhome buffer List.mem_cons_self)
    · dsimp only at hb ⊢
      rw [hheld.1] at hb
      have hne : buffer ≠ b := fun heq => hnot (by rw [heq]; exact hb)
      rw [place_lend_of_ne hne]
      exact hhome b (List.mem_cons_of_mem _ hb)
    · dsimp only
      rw [hheld.1]
      exact hrest
  | start => exact ⟨hh.lending, nofun, .nil, nofun⟩
  | poll hat => exact hh.moves hat (List.Sublist.refl _) id
  | timeout hat => exact hh.moves hat (List.Sublist.refl _) id
  | @receive buffer rest hat hfirst =>
    refine ⟨(hfirst ▸ hh.lending).accept, fun b hb => ?_, List.nodup_singleton _, nofun⟩
    obtain rfl := List.mem_singleton.1 hb
    exact place_accept_self _ _

/-! ## The lengths -/

/-- No more bytes are read. -/
def Ended (s : State) : Prop :=
  (s.stop = true ∧ ∀ buffer data next, s.control ≠ .reading buffer data next) ∨ s.closed = true ∧ s.unread = []

/-- The bytes of the last buffer are fewer than a buffer has. -/
def Queue.Short (q : Queue) : Prop := ∃ e, q.enqueued.getLast? = some e ∧ e.2.length ≠ bufferBytes

structure Whole (s : State) : Prop where
  full : ∀ e ∈ s.queue.enqueued.dropLast, e.2.length = bufferBytes
  short : s.queue.Short → s.control.inFlight = [] ∧ Ended s
  size : s.control.inFlight.length ≤ bufferBytes
  filled : ∀ buffer data next, s.control = .filled buffer data next → data.length < bufferBytes → Ended s
  enqueueing : ∀ buffer data next, s.control = .enqueueing buffer data next →
    data ≠ [] ∧ (data.length < bufferBytes → Ended s)
  finished : s.control = .finished (.ok ()) → s.stop = true ∨ s.closed = true ∧ s.unread = []

/-- A place where nothing is asked of the bytes. -/
def Control.Plain : Control → Prop
  | .reading _ _ _ => False
  | .filled _ _ _ => False
  | .enqueueing _ _ _ => False
  | .finished (.ok ()) => False
  | _ => True

theorem Ended.moves {control : Control} (h : Ended s) (hread : ∀ buffer data next, control ≠ .reading buffer data next) :
    Ended { s with control := control } :=
  h.imp (fun hstop => ⟨hstop.1, hread⟩) id

theorem Control.Plain.not_reading {control : Control} (h : control.Plain) (buffer : Buffer) (data : List UInt8)
    (next : Next) : control ≠ .reading buffer data next := by
  rintro rfl
  exact h

theorem Whole.moves (h : Whole s) (hat : s.control = before)
    (hflight : after.inFlight = before.inFlight) (hplain : after.Plain) : Whole { s with control := after } where
  full := h.full
  short hshort := by
    obtain ⟨hnone, hended⟩ := h.short hshort
    rw [hat] at hnone
    exact ⟨hflight.trans hnone, hended.moves hplain.not_reading⟩
  size := by
    have hsize := h.size
    rw [hat] at hsize
    dsimp only
    rw [hflight]
    exact hsize
  filled buffer data next heq := by
    dsimp only at heq
    rw [heq] at hplain
    exact hplain.elim
  enqueueing buffer data next heq := by
    dsimp only at heq
    rw [heq] at hplain
    exact hplain.elim
  finished heq := by
    dsimp only at heq
    rw [heq] at hplain
    exact hplain.elim

/-- What the guest and a stop request do does not make the worker read again. -/
theorem Whole.of_ended (h : Whole s) (hqueue : s'.queue.enqueued = s.queue.enqueued) (hcontrol : s'.control = s.control)
    (hended : Ended s → Ended s')
    (hfinished : s.stop = true ∨ s.closed = true ∧ s.unread = [] → s'.stop = true ∨ s'.closed = true ∧ s'.unread = []) :
    Whole s' where
  full := by
    rw [hqueue]
    exact h.full
  short hshort := by
    unfold Queue.Short at hshort
    rw [hqueue] at hshort
    rw [hcontrol]
    exact ⟨(h.short hshort).1, hended (h.short hshort).2⟩
  size := by
    rw [hcontrol]
    exact h.size
  filled buffer data next heq hlt := hended (h.filled buffer data next (hcontrol ▸ heq) hlt)
  enqueueing buffer data next heq := by
    obtain ⟨hne, hlt⟩ := h.enqueueing buffer data next (hcontrol ▸ heq)
    exact ⟨hne, fun hlen => hended (hlt hlen)⟩
  finished heq := hfinished (h.finished (hcontrol ▸ heq))

theorem Whole.finish (h : Whole s) {result : Except String Unit}
    (hfinished : result = .ok () → s.stop = true ∨ s.closed = true ∧ s.unread = []) : Whole (s.finish result) where
  full := by
    unfold State.finish
    rw [enqueued_drop]
    exact h.full
  short hshort := by
    unfold State.finish Queue.Short at hshort
    rw [enqueued_drop] at hshort
    exact ⟨rfl, (h.short hshort).2.imp (fun hstop => ⟨hstop.1, nofun⟩) id⟩
  size := Nat.zero_le _
  filled := nofun
  enqueueing := nofun
  finished heq := hfinished (Control.finished.inj heq)

theorem Whole.full_all (h : Whole s) (hshort : ¬s.queue.Short) : ∀ e ∈ s.queue.enqueued, e.2.length = bufferBytes := by
  intro e he
  rcases List.eq_nil_or_concat s.queue.enqueued with hnil | ⟨init, last, hconcat⟩
  · rw [hnil] at he
    cases he
  · rw [List.concat_eq_append] at hconcat
    have hfull := h.full
    rw [hconcat, List.dropLast_concat] at hfull
    rw [hconcat, List.mem_append, List.mem_singleton] at he
    rcases he with he | rfl
    · exact hfull e he
    · by_contra hne
      exact hshort ⟨e, by rw [hconcat, List.getLast?_concat], hne⟩

theorem ended_stop_or (h : Ended s) : s.stop = true ∨ s.closed = true ∧ s.unread = [] := h.imp (fun hstop => hstop.1) id

theorem step_whole (h : Step s e s') (hw : Whole s) : Whole s' := by
  cases h with
  | requestStop => exact hw.of_ended rfl rfl (fun hended => hended.imp (fun hstop => ⟨rfl, hstop.2⟩) id) fun _ => .inl rfl
  | send bytes hopen =>
    have hclosed : ¬s.closed = true := by simp [hopen]
    exact hw.of_ended rfl rfl (fun hended => .inl (hended.resolve_right fun hend => hclosed hend.1))
      fun hend => .inl (hend.resolve_right fun hend => hclosed hend.1)
  | close =>
    exact hw.of_ended rfl rfl (fun hended => hended.imp id fun hend => ⟨rfl, hend.2⟩) fun hend => hend.imp id fun hend => ⟨rfl, hend.2⟩
  | complete => exact hw.of_ended rfl rfl id id
  | create hat => exact hw.moves hat rfl trivial
  | notCreated hat => exact hw.moves hat rfl trivial
  | allocate hat => exact hw.moves hat rfl trivial
  | fail => exact hw.finish nofun
  | prime hat => exact hw.moves hat rfl trivial
  | fill hat => exact hw.moves hat rfl trivial
  | primed hat => exact hw.moves hat rfl trivial
  | @read buffer data next hat _ hstop =>
    have hsize := hw.size
    rw [hat] at hsize
    refine ⟨hw.full, fun hshort => ?_, hsize, nofun, nofun, nofun⟩
    obtain ⟨hnone, hended⟩ := hw.short hshort
    rw [hat] at hnone
    exact ⟨hnone, .inr (hended.resolve_left fun hcontra => by simp [hstop] at hcontra)⟩
  | @fillDone buffer data next hat hdone =>
    have hsize := hw.size
    rw [hat] at hsize
    refine ⟨hw.full, fun hshort => ?_, hsize, fun _ _ _ heq hlt => ?_, nofun, nofun⟩
    · obtain ⟨hnone, hended⟩ := hw.short hshort
      rw [hat] at hnone
      exact ⟨hnone, hended.moves nofun⟩
    · cases heq
      exact .inl ⟨by simpa [hlt] using hdone, nofun⟩
  | again hat => exact hw.moves hat rfl trivial
  | @eof buffer data next hat hnone hclosed =>
    have hsize := hw.size
    rw [hat] at hsize
    refine ⟨hw.full, fun hshort => ?_, hsize, fun _ _ _ _ _ => .inr ⟨hclosed, hnone⟩, nofun, nofun⟩
    obtain ⟨hflight, hended⟩ := hw.short hshort
    rw [hat] at hflight
    exact ⟨hflight, hended.moves nofun⟩
  | @take buffer data next n hat hne hunread hroom =>
    have hsize := hw.size
    rw [hat] at hsize
    refine ⟨hw.full, fun hshort => ?_, ?_, nofun, nofun, nofun⟩
    · obtain ⟨-, ⟨-, hread⟩ | ⟨-, hnone⟩⟩ := hw.short hshort
      · exact absurd hat (hread buffer data next)
      · rw [hnone] at hunread
        exact absurd (Nat.le_zero.1 hunread) hne
    · show (data ++ s.unread.take n).length ≤ bufferBytes
      have hsize : data.length ≤ bufferBytes := hsize
      rw [List.length_append, List.length_take, Nat.min_eq_left hunread]
      omega
  | done hat =>
    refine hw.finish fun _ => ?_
    obtain ⟨buffer, next, hat⟩ | ⟨-, hstop⟩ := hat
    · exact ended_stop_or (hw.filled buffer [] next hat (by decide))
    · exact .inl hstop
  | @filled buffer data next hat hsome =>
    have hsize := hw.size
    rw [hat] at hsize
    refine ⟨hw.full, fun hshort => ?_, hsize, nofun, fun _ _ _ heq => ?_, nofun⟩
    · obtain ⟨hnone, hended⟩ := hw.short hshort
      rw [hat] at hnone
      exact ⟨hnone, hended.moves nofun⟩
    · cases heq
      exact ⟨hsome, fun hlt => (hw.filled buffer data next hat hlt).moves nofun⟩
  | @enqueue buffer data next control _ _ hat hnext =>
    obtain ⟨hne, hlt⟩ := hw.enqueueing buffer data next hat
    have hcontrol : control.inFlight = [] ∧ control.Plain := by
      obtain ⟨rest, -, rfl⟩ | ⟨-, rfl⟩ := hnext
      · exact ⟨rfl, trivial⟩
      · exact ⟨rfl, trivial⟩
    have hshort : ¬s.queue.Short := fun hshort => by
      have hnone := (hw.short hshort).1
      rw [hat] at hnone
      exact hne hnone
    refine ⟨fun e he => ?_, fun hshort' => ?_, ?_, ?_, ?_, ?_⟩
    · have hlast : (s.queue.enqueued ++ [(buffer, data)]).dropLast = s.queue.enqueued := List.dropLast_concat
      exact hw.full_all hshort e (hlast ▸ he)
    · obtain ⟨e, hlast, hlen⟩ := hshort'
      have hlast' : (s.queue.enqueued ++ [(buffer, data)]).getLast? = some e := hlast
      rw [List.getLast?_concat] at hlast'
      obtain rfl := Option.some.inj hlast'
      have hsize := hw.size
      rw [hat] at hsize
      exact ⟨hcontrol.1, (hlt (Nat.lt_of_le_of_ne hsize hlen)).moves hcontrol.2.not_reading⟩
    · show control.inFlight.length ≤ bufferBytes
      rw [hcontrol.1]
      exact Nat.zero_le _
    · exact fun _ _ _ heq => absurd hcontrol.2 (by rw [show control = _ from heq]; exact id)
    · exact fun _ _ _ heq => absurd hcontrol.2 (by rw [show control = _ from heq]; exact id)
    · exact fun heq => absurd hcontrol.2 (by rw [show control = _ from heq]; exact id)
  | start hat =>
    have hmoved : Whole { s with control := .playing } := hw.moves hat rfl trivial
    exact hmoved.of_ended rfl rfl id id
  | poll hat => exact hw.moves hat rfl trivial
  | timeout hat => exact hw.moves hat rfl trivial
  | @receive buffer _ hat _ =>
    have hmoved : Whole { s with control := .filling buffer [] .play } := hw.moves hat rfl trivial
    exact hmoved.of_ended rfl rfl id id

/-! ## The end of the queue -/

theorem everStarted_drop (q : Queue) : q.drop.everStarted = q.everStarted := by
  unfold Queue.drop Queue.stop
  split <;> rfl

structure Begun (s : State) : Prop where
  notStarted : s.queue.everStarted = false →
    s.queue.started = false ∧ s.queue.lent = s.queue.enqueued.map Prod.fst
  whole : s.control.Runs → s.queue.cancelled = []

theorem Begun.moves (h : Begun s) (hat : s.control = before) (hruns : before.Runs) :
    Begun { s with control := after } :=
  ⟨h.notStarted, fun _ => h.whole (by rw [hat]; exact hruns)⟩

theorem Begun.finish (h : Begun s) (result : Except String Unit) : Begun (s.finish result) := by
  refine ⟨fun hnot => ?_, nofun⟩
  unfold State.finish at hnot ⊢
  rw [everStarted_drop] at hnot
  obtain ⟨hstarted, hlent⟩ := h.notStarted hnot
  rw [lent_drop, enqueued_drop]
  refine ⟨?_, hlent⟩
  unfold Queue.drop Queue.stop
  rw [if_neg (by simp [hstarted])]
  exact hstarted

theorem step_begun (h : Step s e s') (hb : Begun s) : Begun s' := by
  cases h with
  | requestStop => exact ⟨hb.notStarted, hb.whole⟩
  | send => exact ⟨hb.notStarted, hb.whole⟩
  | close => exact ⟨hb.notStarted, hb.whole⟩
  | complete hstarted =>
    refine ⟨fun hnot => ?_, hb.whole⟩
    rw [(hb.notStarted hnot).1] at hstarted
    cases hstarted
  | create hat => exact hb.moves hat trivial
  | notCreated hat => exact hb.moves hat trivial
  | allocate hat => exact hb.moves hat trivial
  | fail => exact hb.finish _
  | prime hat => exact hb.moves hat trivial
  | fill hat => exact hb.moves hat trivial
  | primed hat => exact hb.moves hat trivial
  | read hat => exact hb.moves hat trivial
  | fillDone hat => exact hb.moves hat trivial
  | again hat => exact hb.moves hat trivial
  | eof hat => exact hb.moves hat trivial
  | take hat => exact ⟨hb.notStarted, fun _ => hb.whole (by rw [hat]; trivial)⟩
  | done => exact hb.finish _
  | filled hat => exact hb.moves hat trivial
  | @enqueue buffer data next control _ _ hat hnext =>
    refine ⟨fun hnot => ?_, fun _ => hb.whole (by rw [hat]; trivial)⟩
    obtain ⟨hstarted, hlent⟩ := hb.notStarted hnot
    refine ⟨hstarted, ?_⟩
    dsimp only
    rw [lent_enqueue, hlent, Queue.enqueue, List.map_append]
    rfl
  | start hat => exact ⟨nofun, fun _ => hb.whole (by rw [hat]; trivial)⟩
  | poll hat => exact hb.moves hat trivial
  | timeout hat => exact hb.moves hat trivial
  | receive hat => exact ⟨hb.notStarted, fun _ => hb.whole (by rw [hat]; trivial)⟩

/-- Without a stop request, the end of the stream is read into an empty buffer only when all that was enqueued has been
played. -/
def Timely (s : State) (e : Event) : Prop :=
  s.stop = false →
    ∀ buffer next, s.control = .reading buffer [] next → e = .call (.read (.bytes 0)) → s.queue.pending = []

structure Drained (s : State) : Prop where
  filled : ∀ buffer next, s.control = .filled buffer [] next → s.stop = false → s.queue.pending = []
  finished : s.control = .finished (.ok ()) → s.stop = false → s.queue.lent = []

/-- A place that is not the end of the stream. -/
def Control.Midway : Control → Prop
  | .filled _ [] _ => False
  | .finished (.ok ()) => False
  | _ => True

theorem drained_of_midway (h : s.control.Midway) : Drained s := by
  refine ⟨fun buffer next heq => ?_, fun heq => ?_⟩
  · rw [heq] at h
    exact h.elim
  · rw [heq] at h
    exact h.elim

theorem step_drained (h : Step s e s') (hb : Begun s) (hd : Drained s) (ht : Timely s e) : Drained s' := by
  cases h with
  | requestStop => exact ⟨fun _ _ _ => nofun, fun _ => nofun⟩
  | send => exact ⟨hd.filled, hd.finished⟩
  | close => exact ⟨hd.filled, hd.finished⟩
  | complete _ hpending =>
    refine ⟨fun buffer next heq hstop => ?_, fun heq hstop => ?_⟩
    · rw [hd.filled buffer next heq hstop] at hpending
      cases hpending
    · have hlent := hd.finished heq hstop
      rw [(List.append_eq_nil_iff.1 hlent).2] at hpending
      cases hpending
  | create => exact drained_of_midway trivial
  | notCreated => exact drained_of_midway trivial
  | allocate => exact drained_of_midway trivial
  | fail => exact drained_of_midway trivial
  | prime => exact drained_of_midway trivial
  | fill => exact drained_of_midway trivial
  | primed => exact drained_of_midway trivial
  | read => exact drained_of_midway trivial
  | @fillDone buffer data next _ hdone =>
    refine ⟨fun _ _ heq hstop => absurd ?_ hdone, nofun⟩
    cases heq
    exact ⟨by decide, hstop⟩
  | again => exact drained_of_midway trivial
  | @eof buffer data next hat _ _ hevent =>
    refine ⟨fun _ _ heq hstop => ?_, nofun⟩
    cases heq
    exact ht hstop buffer next hat hevent
  | take => exact drained_of_midway trivial
  | done hat =>
    refine ⟨nofun, fun _ hstop => ?_⟩
    have hstop : s.stop = false := hstop
    unfold State.finish
    rw [lent_drop]
    obtain ⟨buffer, next, hat⟩ | ⟨-, hstopped⟩ := hat
    · unfold Queue.lent
      rw [hb.whole (by rw [hat]; trivial), hd.filled buffer next hat hstop]
      rfl
    · rw [hstop] at hstopped
      cases hstopped
  | filled => exact drained_of_midway trivial
  | enqueue _ hnext =>
    refine drained_of_midway ?_
    obtain ⟨rest, -, rfl⟩ | ⟨-, rfl⟩ := hnext <;> trivial
  | start => exact drained_of_midway trivial
  | poll => exact drained_of_midway trivial
  | timeout => exact drained_of_midway trivial
  | receive => exact drained_of_midway trivial

/-! ## The promises -/

/-- Everything the guest sent was enqueued, on a queue that was started, and nothing was cancelled. -/
structure Heard (s : State) : Prop where
  all : s.queue.bytes = s.sent
  started : s.sent ≠ [] → s.queue.everStarted = true
  played : s.queue.cancelled = [] ∧ s.queue.pending = []

structure Promises (s : State) : Prop where
  inOrder : s.queue.bytes <+: s.sent
  orderly : Orderly s.log
  frames : ∀ e ∈ s.queue.enqueued.dropLast, bytesPerFrame ∣ e.2.length
  heard : s.control = .finished (.ok ()) → s.stop = false → Heard s

structure Inv (s : State) : Prop where
  delivered : Delivered s
  held : Held s
  whole : Whole s
  begun : Begun s

theorem inv_init : Inv system.init where
  delivered := ⟨List.prefix_refl _, fun _ => rfl⟩
  held := ⟨.start, nofun, .nil, fun _ => rfl⟩
  whole := ⟨nofun, fun hshort => absurd hshort (by rintro ⟨e, he, -⟩; cases he), Nat.zero_le _, nofun, nofun, nofun⟩
  begun := ⟨fun _ => ⟨rfl, rfl⟩, fun _ => rfl⟩

theorem step_inv (h : Step s e s') (hi : Inv s) : Inv s' :=
  ⟨step_delivered h hi.delivered, step_held h hi.held, step_whole h hi.whole, step_begun h hi.begun⟩

theorem Inv.promises (hi : Inv s) (hd : Drained s) : Promises s where
  inOrder := hi.delivered.1
  orderly := hi.held.lending.orderly
  frames e he := by
    rw [hi.whole.full e he]
    decide
  heard hdone hstop := by
    have hend := (hi.whole.finished hdone).resolve_left (by simp [hstop])
    have hbytes := hi.delivered.2 (by rw [hdone]; exact id)
    rw [hdone, hend.2, List.append_nil] at hbytes
    have hbytes : s.queue.bytes = s.sent := by simpa [Control.inFlight] using hbytes
    have hlent := hd.finished hdone hstop
    refine ⟨hbytes, fun hsent => ?_, List.append_eq_nil_iff.1 hlent⟩
    by_contra hnot
    have henqueued := (hi.begun.notStarted (by simpa using hnot)).2
    rw [hlent, eq_comm, List.map_eq_nil_iff] at henqueued
    rw [← hbytes, Queue.bytes, henqueued] at hsent
    exact hsent rfl

/-- The bytes are in order and the buffers in turn in every run; the sound is heard in every run that reads the end of the
stream only after everything was played. -/
theorem plays_promises (s : State) :
    (system.Reachable s → s.queue.bytes <+: s.sent ∧ Orderly s.log ∧
      ∀ e ∈ s.queue.enqueued.dropLast, bytesPerFrame ∣ e.2.length) ∧
    (system.ReachableWhere Timely s → Promises s) := by
  constructor
  · intro h
    have hinv : Inv s := h.invariant inv_init fun s e s' hi hstep => step_inv (step_cases hstep) hi
    refine ⟨hinv.delivered.1, hinv.held.lending.orderly, fun e he => ?_⟩
    rw [hinv.whole.full e he]
    decide
  · intro h
    have hinv : Inv s ∧ Drained s := by
      refine h.invariant (I := fun s => Inv s ∧ Drained s) ⟨inv_init, drained_of_midway trivial⟩ ?_
      rintro s e s' ⟨hi, hd⟩ ht hstep
      have hcases := step_cases hstep
      exact ⟨step_inv hcases hi, step_drained hcases hi.begun hd ht⟩
    exact hinv.1.promises hinv.2

/-- The worker is done, without a stop request, and its queue was not started for what the guest sent. -/
def State.silent (s : State) : Bool :=
  match s.control with
  | .finished (.ok ()) => !s.stop && !s.sent.isEmpty && !s.queue.everStarted
  | _ => false

/-- A frame, and the end of the stream. -/
def oneFrame : List Event :=
  .call (.newOutput 0) :: (List.range bufferCount).map (fun b => .call (.allocateBuffer 0 b)) ++
    [.call .none, .send [1, 2, 3, 4], .close, .call .none, .call .none, .call (.read (.bytes 4)), .call .none,
      .call (.read (.bytes 0)), .call .none, .call (.enqueueBuffer 0), .call .none, .call .none, .call (.read (.bytes 0)),
      .call .none]

/-- A stream that ends before all buffers are filled once is never played. -/
theorem short_stream_silent : ∃ s, system.Reachable s ∧ ¬Promises s := by
  have hrun : (system.run system.init oneFrame).any State.silent = true := by decide
  obtain ⟨s, hs, hsilent⟩ := System.exists_reachable hrun
  refine ⟨s, hs, fun hpromises => ?_⟩
  unfold State.silent at hsilent
  split at hsilent
  next hdone =>
    simp only [Bool.and_eq_true, Bool.not_eq_true', List.isEmpty_eq_false_iff] at hsilent
    obtain ⟨⟨hstop, hsent⟩, hnot⟩ := hsilent
    rw [(hpromises.heard hdone hstop).started hsent] at hnot
    cases hnot
  · cases hsilent

end CocoaWay.Audio
