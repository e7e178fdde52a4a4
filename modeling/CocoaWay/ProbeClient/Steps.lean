import CocoaWay.Lib.Fallible
import CocoaWay.ProbeClient.Invariant

/-!
# The steps of a probe client keep the invariant

* `Keeps` : a program keeps it, and its failures are sane; `Keeps.bind` and what goes out;
* `input_ends`, `release_ends`, `handle_ends` : a message that was delivered;
* `prepareBuffer_ends`, `prepareBuffers_ends` : a buffer of the size of the window.
-/

namespace CocoaWay.ProbeClient
open Lib
open InputProbe (Row Marker)

variable {output : Output} {α β : Type} {m : Probe α} {f : α → Probe β} {env : Env} {w : World} {r : Received}
  {index : Nat}
  {ms : List Marker}

/-! ## What goes out -/

section Ends

variable {Q : α → World → Prop} {E : World → Prop} {app : App}

theorem ends_getApp {Q : App → World → Prop} :
    Ends getApp Q E w ↔ Q w.app w := ends_bind.trans (ends_get.trans ends_pure)

theorem ends_modifyApp {Q : PUnit → World → Prop} {g : App → App} :
    Ends (modifyApp g) Q E w ↔ Q ⟨⟩ { w with app := g w.app } := ends_modify

theorem ends_push {Q : PUnit → World → Prop} {action : Action} :
    Ends (push action) Q E w ↔ Q ⟨⟩ { w with log := action :: w.log } := ends_modify

theorem ends_ask {Q : Nat → World → Prop} : Ends ask Q E w ↔ Q w.calls { w with calls := w.calls + 1 } :=
  ends_bind.trans (ends_get.trans (ends_bind.trans (ends_set.trans ends_pure)))

theorem ends_now {Q : UInt64 → World → Prop} :
    Ends (now env) Q E w ↔ Q (env.now w.calls) { w with calls := w.calls + 1 } :=
      ends_bind.trans (ends_ask.trans ends_pure)

theorem ends_liftExcept {x : Except Fault α} (hE : E w) (hQ : ∀ a, x = .ok a → Q a w) : Ends (liftExcept x) Q E w := by
  cases x with
  | error e => exact ends_throw.2 hE
  | ok a => exact ends_pure.2 (hQ a rfl)

theorem ends_orError {message : String} {x : Option α} (hE : E w) (hQ : ∀ a, x = some a → Q a w) :
    Ends (orError message x) Q E w := by
  cases x with
  | none => exact ends_throw.2 hE
  | some a => exact ends_pure.2 (hQ a rfl)

theorem ends_ensure {Q : PUnit → World → Prop} {p : Prop} [Decidable p] {e : Fault} (hE : E w) (hQ : p → Q ⟨⟩ w) :
    Ends (ensure p e) Q E w := by
  unfold ensure
  split
  next hp => exact ends_pure.2 (hQ hp)
  · exact ends_throw.2 hE

theorem ends_request {Q : PUnit → World → Prop} (hE : Sane output w) (hQ : ∀ calls, Q ⟨⟩ { w with calls := calls }) :
    Ends (request env) Q (Sane output) w :=
  ends_bind.2 (ends_ask.2 (ends_ensure hE fun _ => hQ _))

theorem ends_requestIf {Q : PUnit → World → Prop} {p : Prop} [Decidable p] (hE : Sane output w)
    (hQ : ∀ calls, Q ⟨⟩ { w with calls := calls }) : Ends (requestIf env p) Q (Sane output) w := by
  unfold requestIf
  split
  · exact ends_request hE hQ
  · exact hQ w.calls

theorem ends_newObject {Q : Object → World → Prop} (hE : Sane output w)
    (hQ : ∀ calls, Q w.objects { w with calls := calls, objects := w.objects + 1 }) :
    Ends (newObject env) Q (Sane output) w :=
  ends_bind.2 (ends_request hE fun calls => hQ calls)

end Ends

def Keeps (output : Output) (m : Probe α) : Prop := ∀ w, Inv output w → Ends m (fun _ => Inv output) (Sane output) w

namespace Keeps

theorem bind (hm : Keeps output m) (hf : ∀ a, Keeps output (f a)) : Keeps output (m >>= f) :=
  fun w hw => (hm w hw).bind fun a w' hw' => hf a w' hw'

theorem pure (a : α) : Keeps output (Pure.pure a : Probe α) := fun _ hw => hw

theorem throw (e : Fault) : Keeps output (MonadExcept.throw e : Probe α) := fun _ hw => hw.sane

theorem getApp : Keeps output getApp := fun _ hw => hw

theorem modifyApp {f : App → App} (hf : ∀ w : World, ({ w with app := f w.app } : World).view = w.view) :
    Keeps output (modifyApp f) := by
  rintro w ⟨ms, hw⟩
  exact ⟨ms, (hf w).symm ▸ hw⟩

theorem ensure {p : Prop} [Decidable p] {e : Fault} : Keeps output (ensure p e) := by
  unfold ProbeClient.ensure
  split
  · exact pure _
  · exact throw e

theorem orError {message : String} (a : Option α) : Keeps output (orError message a) := by
  cases a with
  | none => exact throw _
  | some a => exact pure a

theorem now : Keeps output (now env) := fun _ hw => hw

theorem request : Keeps output (request env) := by
  refine bind (m := ask) (fun _ hw => hw) fun _ => ensure

theorem requestIf {p : Prop} [Decidable p] : Keeps output (requestIf env p) := by
  unfold ProbeClient.requestIf
  split
  · exact request
  · exact pure _

theorem newObject : Keeps output (newObject env) := by
  refine bind request fun _ => ?_
  rintro w ⟨ms, hw⟩
  exact ⟨ms, hw.grow (Nat.le_succ _)⟩

theorem bindObject {f : Object → App → App}
    (hf : ∀ object (w : World), ({ w with app := f object w.app } : World).view = w.view) :
    Keeps output (ProbeClient.bind env f) :=
  bind newObject fun object => modifyApp (hf object)

theorem record {name : String} {ns : UInt64} {fields : Row} (hname : name ≠ "frame_commit") :
    Keeps output (record env name ns fields) := by
  have hrow : ∀ app : App, isCommitRow (recordRow env.pid app.options.tag name ns fields) = false := by
    intro app
    refine decide_eq_false fun h => hname ?_
    exact InputProbe.Value.str.inj h
  refine bind getApp fun app => ?_
  split
  · exact pure _
  · refine bind request fun _ => ?_
    rintro w ⟨ms, hw⟩
    exact ⟨ms, hw.record (hrow app)⟩

theorem initWindow : Keeps output (initWindow env) := by
  refine bind getApp fun app => bind (bind (orError _) fun _ => pure _) fun _ => bind (bind (orError _) fun _ => pure _)
    fun _ => bind (bind (orError _) fun _ => pure _) fun _ => bind newObject fun surface => bind newObject fun xdg =>
    bind newObject fun toplevel => bind request fun _ => bind request fun _ => bind request fun _ =>
      bind request fun _ =>
    bind request fun _ => bind ?_ fun _ => modifyApp fun _ => rfl
  rintro w ⟨ms, hw⟩
  exact ⟨ms, hw.commit⟩

variable {name : UInt32}

theorem keyboardCapability {hasKeyboard : Bool} :
    Keeps output (keyboardCapability env name hasKeyboard) := by
  refine bind getApp fun app => bind (orError _) fun seat => ?_
  split
  · exact bind (modifyApp fun _ => rfl) fun _ => requestIf
  · split
    · exact bindObject fun _ _ => rfl
    · exact pure _

theorem pointerCapability {hasPointer : Bool} :
    Keeps output (pointerCapability env name hasPointer) := by
  refine bind getApp fun app => bind (orError _) fun seat => ?_
  split
  · exact bind (modifyApp fun _ => rfl) fun _ => requestIf
  · split
    · exact bindObject fun _ _ => rfl
    · exact pure _

theorem global {interface : String} {version : UInt32} :
    Keeps output (global env name interface version) := by
  refine bind getApp fun app => ?_
  split
  · exact bindObject fun _ _ => rfl
  · split
    · exact bindObject fun _ _ => rfl
    · split
      · exact bindObject fun _ _ => rfl
      · split
        · exact bindObject fun _ _ => rfl
        · exact pure _

theorem window_clampDimension (n : Int) : Window (clampDimension n) := by
  unfold Window clampDimension
  rw [UInt32.toNat_ofNat_of_lt' (by have : UInt32.size = 4294967296 := rfl; omega)]
  omega

theorem resize {width height : Int} : Keeps output (ProbeClient.modifyApp fun app => resize app width height) := by
  rintro w ⟨ms, hw⟩
  refine ⟨ms, { hw with width := ?_, height := ?_ }⟩
  · change Window (if 0 < width then clampDimension width else w.app.width)
    split
    · exact window_clampDimension width
    · exact hw.width
  · change Window (if 0 < height then clampDimension height else w.app.height)
    split
    · exact window_clampDimension height
    · exact hw.height

end Keeps

/-! ## Messages -/

def World.deliver (w : World) (r : Received) : World := { w with log := .delivered r :: w.log }

theorem sane_deliver (h : Inv output w) : Sane output (w.deliver r) := by
  obtain ⟨ms, hms⟩ := h
  exact ⟨ms, hms.history.delivered⟩

theorem release_ends (h : Inv output w) (hr : r.message = .release index) :
    Ends (release env r index) (fun _ => Inv output) (Sane output) (w.deliver r) := by
  obtain ⟨ms, hms⟩ := h
  have hinput : r.message.isInput = false := by
    rw [hr]
    rfl
  have hreleases : r.releases r.sender = true := by
    unfold Received.releases
    rw [hr]
    exact decide_eq_true rfl
  refine ends_bind.2 (ends_getApp.2 ?_)
  cases hindex : (w.deliver r).app.buffers[index]? with
  | none => exact sane_deliver ⟨ms, hms⟩
  | some buffer =>
    have hsane : Sane output (w.deliver r) := sane_deliver ⟨ms, hms⟩
    refine ends_bind.2 (ends_ensure hsane fun hobject => ?_)
    refine ends_bind.2 (ends_orError hsane fun frame _ => ?_)
    refine ends_bind.2 (ends_modifyApp.2 ?_)
    exact Keeps.record (by decide) _ ⟨ms, hms.release hinput hreleases hindex hobject⟩

variable {seat : UInt32}

theorem keyboardEvent_changed {d d' : Devices} {event : KeyboardEvent} {e : Effect}
    (h : keyboardEvent d seat event = .ok (d', e)) : e.changed = event.isVisual := by
  unfold keyboardEvent at h
  split at h
  · cases h
  · cases event with
    | key serial time key state =>
      obtain ⟨order, -, h⟩ := ok_of_bind h
      obtain ⟨t, -, h⟩ := ok_of_bind h
      cases h
      rfl
    | _ =>
      cases h
      rfl

theorem pointerEvent_changed {d d' : Devices} {event : PointerEvent} {e : Effect}
    (h : pointerEvent d seat event = .ok (d', e)) : e.changed = event.isVisual := by
  cases event with
  | button serial time button state =>
    obtain ⟨order, -, h⟩ := ok_of_bind h
    split at h
    · cases h
    · obtain ⟨t, -, h⟩ := ok_of_bind h
      cases h
      rfl
  | enter serial position =>
    obtain ⟨d, -, h⟩ := ok_of_bind h
    cases h
    rfl
  | leave serial =>
    obtain ⟨d, -, h⟩ := ok_of_bind h
    cases h
    rfl
  | _ =>
    cases h
    rfl

/-- An event of a device is counted once, and applied if the picture shows it. -/
theorem input_ends {event : Devices → Except Fault (Devices × Effect)} (h : Inv output w)
    (hr : r.message.isInput = true) (hevent : ∀ d d' e, event d = .ok (d', e) → e.changed = r.message.isVisual) :
    Ends (input env r seat event) (fun _ => Inv output) (Sane output) (w.deliver r) := by
  obtain ⟨ms, hms⟩ := h
  have hsane : Sane output (w.deliver r) := sane_deliver ⟨ms, hms⟩
  refine ends_bind.2 (ends_now.2 ?_)
  refine ends_bind.2 (ends_getApp.2 ?_)
  refine ends_bind.2 (ends_liftExcept hsane fun sequence hsequence => ?_)
  refine ends_bind.2 (ends_modifyApp.2 ?_)
  refine ends_bind.2 (ends_getApp.2 ?_)
  refine ends_bind.2 (ends_liftExcept hsane fun p hp => ?_)
  refine ends_bind.2 (ends_liftExcept hsane fun devices _ => ?_)
  refine ends_bind.2 (ends_modifyApp.2 ?_)
  refine ends_bind.2 (ends_getApp.2 ?_)
  refine ends_bind.2 (ends_liftExcept hsane fun app happ => ?_)
  refine ends_bind.2 (ends_now.2 ?_)
  refine ends_bind.2 (ends_modifyApp.2 ?_)
  refine Ends.bind (Keeps.record (by decide) _ ?_) fun _ w' hw' => Keeps.record (by decide) w' hw'
  have hchanged : p.2.changed = r.message.isVisual := hevent _ p.1 p.2 hp
  cases hvisual : r.message.isVisual with
  | false =>
    rw [hvisual] at hchanged
    unfold countVisual at happ
    rw [hchanged] at happ ⊢
    obtain rfl := Except.ok.inj happ
    exact ⟨ms, hms.input hr hvisual hsequence⟩
  | true =>
    rw [hvisual] at hchanged
    unfold countVisual at happ
    rw [hchanged] at happ ⊢
    obtain ⟨count, hcount, happ⟩ := ok_of_bind happ
    obtain rfl := Except.ok.inj happ
    exact ⟨ms, hms.visual hvisual hsequence hcount rfl⟩

theorem Keeps.configure {serial : UInt32} (hr : r.message = .configure serial) : Keeps output (handle env r) := by
  unfold handle
  rw [hr]
  exact bind request fun _ => bind (modifyApp fun _ => rfl) fun _ => bind getApp fun _ => record (by decide)

theorem Keeps.toplevelConfigure {width height : Int} (hr : r.message = .toplevelConfigure width height) :
    Keeps output (handle env r) := by
  unfold handle
  rw [hr]
  exact bind (record (by decide)) fun _ => resize

theorem Keeps.frame {frame : UInt64} {time : UInt32} (hr : r.message = .frame frame time) :
    Keeps output (handle env r) := by
  unfold handle
  rw [hr]
  exact bind getApp fun _ => bind ensure fun _ => bind (modifyApp fun _ => rfl) fun _ => record (by decide)

theorem handle_ends (h : Inv output w) : Ends (handle env r) (fun _ => Inv output) (Sane output) (w.deliver r) := by
  have hdeliver : r.message.isInput = false → Inv output (w.deliver r) := by
    obtain ⟨ms, hms⟩ := h
    exact fun hr => ⟨ms, hms.deliver hr⟩
  cases hr : r.message with
  | keyboard seat event =>
    unfold handle
    rw [hr]
    refine input_ends h (by rw [hr]; rfl) fun d d' e he => ?_
    rw [hr]
    cases event with
    | none => cases he
    | some event => exact keyboardEvent_changed he
  | pointer seat event =>
    unfold handle
    rw [hr]
    refine input_ends h (by rw [hr]; rfl) fun d d' e he => ?_
    rw [hr]
    cases event with
    | none => cases he
    | some event => exact pointerEvent_changed he
  | release index =>
    unfold handle
    rw [hr]
    exact release_ends h hr
  | configure serial => exact Keeps.configure hr _ (hdeliver (by rw [hr]; rfl))
  | toplevelConfigure width height => exact Keeps.toplevelConfigure hr _ (hdeliver (by rw [hr]; rfl))
  | frame frame time => exact Keeps.frame hr _ (hdeliver (by rw [hr]; rfl))
  | global name interface version =>
    unfold handle
    rw [hr]
    exact Keeps.global _ (hdeliver (by rw [hr]; rfl))
  | globalRemove name =>
    unfold handle
    rw [hr]
    exact Keeps.record (by decide) _ (hdeliver (by rw [hr]; rfl))
  | sync =>
    unfold handle
    rw [hr]
    exact Keeps.initWindow _ (hdeliver (by rw [hr]; rfl))
  | capabilities seat keyboard pointer =>
    unfold handle
    rw [hr]
    exact Keeps.bind Keeps.keyboardCapability (fun _ => Keeps.pointerCapability) _ (hdeliver (by rw [hr]; rfl))
  | ping serial =>
    unfold handle
    rw [hr]
    exact Keeps.request _ (hdeliver (by rw [hr]; rfl))
  | close =>
    unfold handle
    rw [hr]
    exact Keeps.modifyApp (fun _ => rfl) _ (hdeliver (by rw [hr]; rfl))
  | ignored =>
    unfold handle
    rw [hr]
    exact hdeliver (by rw [hr]; rfl)
  | malformed =>
    unfold handle
    rw [hr]
    exact sane_deliver h

/-! ## Buffers -/

/-- The slot has a buffer of the size of the window that the compositor does not have. -/
def Ready (w : World) (index : Nat) : Prop :=
  ∃ buffer object, w.app.buffers[index]? = some buffer ∧ buffer.object = some object ∧ buffer.width = w.app.width ∧
    buffer.height = w.app.height ∧ buffer.busyFrame = none

/-- What a slot is busy with stays, and what is applied. -/
structure Prepared (w w' : World) : Prop where
  busy : w'.app.buffers.map Buffer.busyFrame = w.app.buffers.map Buffer.busyFrame
  window : w'.app.width = w.app.width ∧ w'.app.height = w.app.height

theorem Prepared.refl (w : World) : Prepared w w := ⟨rfl, rfl, rfl⟩

theorem Prepared.trans {w w' w'' : World} (h : Prepared w w') (h' : Prepared w' w'') : Prepared w w'' :=
  ⟨h'.busy.trans h.busy, h'.window.1.trans h.window.1, h'.window.2.trans h.window.2⟩

/-- The compositor does not have the buffer of a slot. -/
def Free (w : World) (index : Nat) : Prop := (w.app.buffers.map Buffer.busyFrame)[index]? = some none

theorem Prepared.free {w w' : World} (h : Prepared w w') (hfree : Free w index) : Free w' index := by
  unfold Free at hfree ⊢
  rwa [h.busy]

theorem map_busyFrame_set {buffers : List Buffer} {buffer buffer' : Buffer} (hindex : buffers[index]? = some buffer)
    (hbusy : buffer.busyFrame = buffer'.busyFrame) :
    (buffers.set index buffer').map Buffer.busyFrame = buffers.map Buffer.busyFrame := by
  refine List.ext_getElem? fun i => ?_
  rw [List.map_set, List.getElem?_set, List.length_map, List.getElem?_map]
  split
  next heq =>
    subst heq
    obtain ⟨hlt, -⟩ := List.getElem?_eq_some_iff.1 hindex
    rw [if_pos hlt, hindex, Option.map_some, hbusy]
  · rfl

theorem replaceBuffer_ends {buffer : Buffer} (h : Inv output w) (hindex : w.app.buffers[index]? = some buffer) :
    Ends (replaceBuffer env index buffer) (fun _ w' => Inv output w' ∧ Prepared w w' ∧ Ready w' index)
      (Sane output) w := by
  have hsane := h.sane
  obtain ⟨ms, hms⟩ := h
  refine ends_bind.2 (ends_getApp.2 ?_)
  refine ends_bind.2 (ends_ensure hsane fun hbusy => ?_)
  refine ends_bind.2 (ends_requestIf hsane fun _ => ?_)
  refine ends_bind.2 (ends_modifyApp.2 ?_)
  refine ends_bind.2 (ends_request hsane fun _ => ?_)
  refine ends_bind.2 (ends_bind.2 (ends_orError hsane fun _ _ => ?_))
  refine ends_bind.2 (ends_bind.2 (ends_newObject hsane fun _ => ?_))
  refine ends_bind.2 (ends_newObject hsane fun _ => ?_)
  have hkept : Kept output _ ms := (hms.clear index).grow (Nat.le_succ w.objects)
  refine ends_bind.2 (ends_push.2 ?_)
  refine ends_bind.2 (ends_request ⟨ms, hms.history.create⟩ fun _ => ?_)
  refine ends_modifyApp.2 ⟨⟨ms, hkept.replace⟩, ?_, ?_⟩
  · refine ⟨?_, rfl, rfl⟩
    change ((w.app.buffers.set index {}).set index _).map Buffer.busyFrame = _
    rw [List.set_set]
    exact map_busyFrame_set hindex (Option.isNone_iff_eq_none.1 hbusy)
  · obtain ⟨hlt, -⟩ := List.getElem?_eq_some_iff.1 hindex
    refine ⟨{ object := some (w.objects + 1), width := w.app.width, height := w.app.height }, w.objects + 1, ?_, rfl,
      rfl, rfl,
      rfl⟩
    change ((w.app.buffers.set index {}).set index _)[index]? = _
    rw [List.set_set, List.getElem?_set_self hlt]

theorem prepareBuffer_ends (h : Inv output w) :
    Ends (prepareBuffer env index) (fun _ w' => Inv output w' ∧ Prepared w w' ∧ (Free w index → Ready w' index))
      (Sane output)
      w := by
  refine ends_bind.2 (ends_getApp.2 ?_)
  cases hindex : w.app.buffers[index]? with
  | none => exact h.sane
  | some buffer =>
    dsimp only
    split
    next hsame =>
      obtain ⟨hobject, hwidth, hheight⟩ := hsame
      obtain ⟨object, hobject⟩ := Option.isSome_iff_exists.1 hobject
      refine ⟨h, .refl w, fun hfree => ⟨buffer, object, hindex, hobject, hwidth, hheight, ?_⟩⟩
      unfold Free at hfree
      rw [List.getElem?_map, hindex] at hfree
      exact Option.some.inj hfree
    · exact (replaceBuffer_ends h hindex).mono (fun _ _ hw' => ⟨hw'.1, hw'.2.1, fun _ => hw'.2.2⟩) fun _ hE => hE

theorem prepareBuffers_ends (h : Inv output w) (hfree : Free w index) :
    Ends (prepareBuffers env index) (fun _ w' => Inv output w' ∧ Ready w' index) (Sane output) w := by
  refine ends_bind.2 (ends_getApp.2 ?_)
  have hloop : Ends ((if w.app.frameSequence = 0 then List.range w.app.buffers.length else []).forM (prepareBuffer env))
      (fun _ w' => Inv output w' ∧ Prepared w w') (Sane output) w := by
    refine ends_forM (I := fun w' => Inv output w' ∧ Prepared w w') (fun slot _ w' hw' => ?_) ⟨h, .refl w⟩
    exact (prepareBuffer_ends hw'.1).mono (fun _ _ hw'' => ⟨hw''.1, hw'.2.trans hw''.2.1⟩) fun _ hE => hE
  refine hloop.bind fun _ w' hw' => ?_
  exact (prepareBuffer_ends hw'.1).mono (fun _ _ hw'' => ⟨hw''.1, hw''.2.2 (hw'.2.free hfree)⟩) fun _ hE => hE

end CocoaWay.ProbeClient
