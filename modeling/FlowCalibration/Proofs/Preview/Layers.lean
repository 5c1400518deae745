import FlowCalibration.Proofs.Preview.Numbers
import Mathlib.Data.List.Infix

/-!
# Layers of drawings

Every layer of a drawing comes from the motions of the run, one after the other.  Segments come from
those that leave their place, blobs from those that extrude much while they stay, and labels from
those that leave their place while a label waits for them.
-/

namespace FlowCalibration

namespace Event

/-- The motion of an event. -/
def motion? : Event → Option Motion
  | .motion move => some move
  | _ => none

/-- The label of an event: that of a message with one. -/
def label? : Event → Option String
  | .status message => Label.ofMessage? message
  | _ => none

/-- Whether an event is a motion that leaves its place. -/
def leaves : Event → Bool
  | .motion move => move.leaves
  | _ => false

end Event

/-- The motions among events, in order. -/
def motions (events : List Event) : List Motion :=
  events.filterMap Event.motion?

/-- The label that waits behind events: the last one since a motion left its place. -/
def waitingLabel? (events : List Event) : Option String :=
  (events.reverse.takeWhile fun event => !event.leaves).findSome? Event.label?

/-- The label that an event places behind the events before it. -/
def placedLabel? (past : List Event) : Event → Option PlacedLabel
  | .motion motion =>
      if motion.leaves then (waitingLabel? past).map (⟨motion.finish, ·⟩) else none
  | _ => none

/-- The labels that events place, in order. -/
def placedLabels (events : List Event) : List PlacedLabel :=
  (events.inits.zip events).filterMap fun (past, event) => placedLabel? past event

/-- The way of a motion. -/
def Motion.path (motion : Motion) : Segment :=
  ⟨motion.start, motion.finish⟩

/-- The blob at the start of a motion. -/
def Motion.blob (motion : Motion) : Blob :=
  ⟨motion.start, motion.de⟩

/-- Behind one more event the label is gone, it is that of the event, or it still waits. -/
theorem waitingLabel?_concat (events : List Event) (event : Event) :
    waitingLabel? (events ++ [event]) =
      if event.leaves then none else event.label? <|> waitingLabel? events := by
  rw [waitingLabel?, List.reverse_append, List.reverse_singleton, List.singleton_append,
    List.takeWhile_cons]
  cases event.leaves with
  | true => rfl
  | false =>
      simp only [Bool.not_false, if_true, Bool.false_eq_true, if_false]
      rw [List.findSome?_cons]
      cases event.label? <;> rfl

namespace Drawing

/-- The segments of one kind. -/
def segments (drawing : Drawing) : SegmentKind → List Segment
  | .travel => drawing.travel
  | .extrusion => drawing.extrusion

variable (options : ViewOptions)

/-- The segments of a kind are the ways of its motions. -/
theorem segments_draw (pending : Option String) (events : List Event) (kind : SegmentKind) :
    (draw options pending events).segments kind =
      ((motions events).filter (·.segment? = some kind)).map Motion.path := by
  induction events generalizing pending with
  | nil => cases kind <;> rfl
  | cons event events induction =>
      cases event with
      | status message => exact induction _
      | positionSet state => exact induction _
      | motion motion =>
          have motions_eq : motions (.motion motion :: events) = motion :: motions events := rfl
          rw [motions_eq, List.filter_cons, draw]
          cases motion.segment? with
          | none => cases kind <;> simpa [segments] using induction pending
          | some own =>
              have rest := induction none
              cases own <;> cases kind <;> simpa [segments, Motion.path] using rest

theorem blobs_draw_eq (pending : Option String) (events : List Event) :
    (draw options pending events).blobs =
      ((motions events).filter (·.isBlob options)).map Motion.blob := by
  rw [blobs_draw, motions, List.filter_filterMap, List.map_filterMap]
  refine List.filterMap_congr fun event _ => ?_
  cases event with
  | status message => rfl
  | positionSet state => rfl
  | motion motion =>
      simp only [blob?, Event.motion?, Option.filter_some]
      split <;> rfl

theorem labels_draw (past events : List Event) :
    (draw options (waitingLabel? past) events).labels =
      (events.inits.zip events).filterMap fun (before, event) =>
        placedLabel? (past ++ before) event := by
  induction events generalizing past with
  | nil => rfl
  | cons event events induction =>
      have later : (draw options (waitingLabel? (past ++ [event])) events).labels =
          ((events.inits.map (event :: ·)).zip events).filterMap fun (before, next) =>
            placedLabel? (past ++ before) next := by
        rw [induction, List.zip_map_left, List.filterMap_map]
        simp
      rw [List.inits_cons, List.zip_cons_cons, List.filterMap_cons, ← later, waitingLabel?_concat]
      simp only [List.append_nil]
      cases event with
      | status message => rfl
      | positionSet state => rfl
      | motion motion =>
          rw [draw, Event.leaves, placedLabel?, Motion.segment?]
          cases motion.leaves with
          | false => rfl
          | true => cases waitingLabel? past <;> rfl

theorem labels_ofEvents (events : List Event) :
    (ofEvents options events).labels = placedLabels events :=
  labels_draw options [] events

end Drawing

end FlowCalibration
