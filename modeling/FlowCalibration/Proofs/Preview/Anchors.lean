import FlowCalibration.Proofs.Preview.Labels

/-!
# Where labels are drawn

The label of a message waits for the first motion behind it that leaves its place and is drawn at
the end of that motion, unless the label of another message comes in between.  Whatever else happens
while a label waits neither draws nor discards it.  So every message with a label draws one text or
none, and the texts of a picture stand in the order of their messages.
-/

namespace FlowCalibration

/-- Whether an event settles what becomes of a waiting label: a motion that leaves its place draws
it, and the label of a message takes its place. -/
def Event.settles (event : Event) : Bool :=
  event.leaves || event.label?.isSome

/-- Where a label in front of events is drawn, if it is drawn at all. -/
def landing? (events : List Event) : Option Point :=
  ((events.find? Event.settles).bind Event.motion?).map Motion.finish

/-- A text that waits in front of events, where it lands. -/
def land? (waiting : Option String) (events : List Event) : Option PlacedLabel :=
  waiting.bind fun text => (landing? events).map (⟨·, text⟩)

/-- The labels of events that are drawn, each with the place of its message. -/
def placements (index : Nat) : List Event → List (Nat × PlacedLabel)
  | [] => []
  | event :: events =>
      ((land? event.label? events).map (Prod.mk index)).toList ++ placements (index + 1) events

/-- Whether the message at a place draws a label: the first motion behind it that leaves its place
ends at the anchor, and no other message with a label stands between them. -/
def DrawsLabel (events : List Event) (index : Nat) (label : PlacedLabel) : Prop :=
  ∃ (before between after : List Event) (message : String) (motion : Motion),
    events = before ++ .status message :: (between ++ .motion motion :: after) ∧
    before.length = index ∧ Label.ofMessage? message = some label.text ∧
    motion.leaves = true ∧ motion.finish = label.anchor ∧
    ∀ event ∈ between, event.leaves = false ∧ event.label? = none

namespace Event

theorem settles_motion (motion : Motion) : (Event.motion motion).settles = motion.leaves :=
  Bool.or_false _

theorem settles_eq_false_iff {event : Event} :
    event.settles = false ↔ event.leaves = false ∧ event.label? = none := by
  rw [settles, Bool.or_eq_false_iff, Option.isSome_eq_false_iff, Option.isNone_iff_eq_none]

end Event

theorem landing?_eq_some_iff {events : List Event} {anchor : Point} :
    landing? events = some anchor ↔
      ∃ between motion after, events = between ++ .motion motion :: after ∧
        motion.leaves = true ∧ (∀ event ∈ between, event.settles = false) ∧
        motion.finish = anchor := by
  simp only [landing?, Option.map_eq_some_iff, Option.bind_eq_some_iff,
    List.find?_eq_some_iff_append, Bool.not_eq_true']
  constructor
  · rintro ⟨motion, ⟨event, ⟨settles, between, after, split, before⟩, moves⟩, anchor_eq⟩
    cases event with
    | motion own =>
        obtain rfl := Option.some.inj moves
        exact ⟨between, own, after, split, Event.settles_motion own ▸ settles, before, anchor_eq⟩
    | status message => contradiction
    | positionSet state => contradiction
  · rintro ⟨between, motion, after, split, leaves, before, anchor_eq⟩
    exact ⟨motion, ⟨.motion motion, ⟨(Event.settles_motion motion).trans leaves, between, after,
      split, before⟩, rfl⟩, anchor_eq⟩

/-- In front of one more event a label is drawn or replaced by it, or waits on. -/
theorem landing?_cons (event : Event) (events : List Event) :
    landing? (event :: events) =
      if event.settles then event.motion?.map Motion.finish else landing? events := by
  rw [landing?, List.find?_cons]
  cases event.settles <;> rfl

namespace Drawing

/-- The labels of a drawing are the one that waits and those of the messages, each where it
lands. -/
theorem labels_draw_eq (options : ViewOptions) (pending : Option String) (index : Nat)
    (events : List Event) :
    (draw options pending events).labels =
      (land? pending events).toList ++ (placements index events).map Prod.snd := by
  induction events generalizing pending index with
  | nil => cases pending <;> rfl
  | cons event events induction =>
      have placed : (placements index (event :: events)).map Prod.snd =
          (land? event.label? events).toList ++ (placements (index + 1) events).map Prod.snd := by
        rw [placements]
        cases land? event.label? events <;> rfl
      rw [placed, land?, landing?_cons]
      cases event with
      | positionSet state => exact induction pending (index + 1)
      | status message =>
          have settles : (Event.status message).settles = (Label.ofMessage? message).isSome := rfl
          have own : (Event.status message).label? = Label.ofMessage? message := rfl
          rw [draw, induction _ (index + 1), settles, own]
          cases Label.ofMessage? message with
          | none => rfl
          | some text =>
              -- The label that waited is gone.
              cases pending <;> rfl
      | motion motion =>
          have rest := induction none (index + 1)
          rw [draw, Motion.segment?, Event.settles_motion]
          cases motion.leaves with
          | false => exact induction pending (index + 1)
          | true =>
              cases pending with
              | none => exact rest
              | some text => exact congrArg (⟨motion.finish, text⟩ :: ·) rest

end Drawing

/-! ## Places of messages -/

theorem land?_eq_some_iff {waiting : Option String} {events : List Event} {label : PlacedLabel} :
    land? waiting events = some label ↔
      waiting = some label.text ∧ landing? events = some label.anchor := by
  obtain ⟨anchor, text⟩ := label
  simp only [land?, Option.bind_eq_some_iff, Option.map_eq_some_iff, PlacedLabel.mk.injEq]
  constructor
  · rintro ⟨own, label_eq, point, landing_eq, rfl, rfl⟩
    exact ⟨label_eq, landing_eq⟩
  · rintro ⟨label_eq, landing_eq⟩
    exact ⟨text, label_eq, anchor, landing_eq, rfl, rfl⟩

theorem drawsLabel_iff {events : List Event} {index : Nat} {label : PlacedLabel} :
    DrawsLabel events index label ↔
      ∃ event, events[index]? = some event ∧
        land? event.label? (events.drop (index + 1)) = some label := by
  simp only [land?_eq_some_iff, landing?_eq_some_iff, Event.settles_eq_false_iff]
  constructor
  · rintro ⟨before, between, after, message, motion, rfl, rfl, labelled, leaves, ends, quiet⟩
    refine ⟨.status message, by simp, labelled, between, motion, after, ?_, leaves, quiet, ends⟩
    simp
  · rintro ⟨event, found, labelled, between, motion, after, behind, leaves, quiet, ends⟩
    cases event with
    | motion own => contradiction
    | positionSet state => contradiction
    | status message =>
        obtain ⟨inside, own⟩ := List.getElem?_eq_some_iff.mp found
        refine ⟨events.take index, between, after, message, motion, ?_, ?_, labelled, leaves,
          ends, quiet⟩
        · rw [← behind, ← own, List.cons_getElem_drop_succ, List.take_append_drop]
        · exact List.length_take_of_le (Nat.le_of_lt inside)

theorem mem_placements_iff {index place : Nat} {label : PlacedLabel} {events : List Event} :
    (place, label) ∈ placements index events ↔
      ∃ offset, place = index + offset ∧ DrawsLabel events offset label := by
  simp only [drawsLabel_iff]
  induction events generalizing index with
  | nil => simp [placements]
  | cons event events induction =>
      rw [placements, List.mem_append, induction, Option.mem_toList, Option.map_eq_some_iff]
      constructor
      · rintro (⟨own, landed, same⟩ | ⟨offset, rfl, other, found, landed⟩)
        · obtain ⟨rfl, rfl⟩ := Prod.mk.inj same
          exact ⟨0, rfl, event, rfl, landed⟩
        · exact ⟨offset + 1, by omega, other, found, landed⟩
      · rintro ⟨offset, rfl, other, found, landed⟩
        cases offset with
        | zero =>
            obtain rfl := Option.some.inj found
            exact .inl ⟨label, landed, rfl⟩
        | succ offset => exact .inr ⟨offset, by omega, other, found, landed⟩

theorem pairwise_placements (index : Nat) (events : List Event) :
    ((placements index events).map Prod.fst).Pairwise (· < ·) := by
  induction events generalizing index with
  | nil => exact .nil
  | cons event events induction =>
      have later : ∀ place ∈ (placements (index + 1) events).map Prod.fst, index < place := by
        simp only [List.mem_map, Prod.exists, exists_and_right, exists_eq_right]
        rintro place ⟨label, member⟩
        obtain ⟨offset, rfl, _⟩ := mem_placements_iff.mp member
        omega
      rw [placements]
      cases land? event.label? events with
      | none => exact induction (index + 1)
      | some label => exact List.pairwise_cons.mpr ⟨later, induction (index + 1)⟩

/-- The texts of a picture are the labels that messages draw, in the order of the messages.  The
text of a label stands at the end of the first motion behind its message that leaves its place;
it is drawn once if no other message with a label comes before that motion, and else not at all. -/
theorem texts_render (options : ViewOptions) (program : String) :
    let events := (replay program).1
    let frame := SceneFrame.of options (Extents.ofEvents events)
    ∃ placed : List (Nat × PlacedLabel),
      (Markup.elements (render options program)).filter (fun element => element.name = "text") =
        placed.map (fun (_, label) => frame.labelText options label) ∧
      (placed.map Prod.fst).Pairwise (· < ·) ∧
      ∀ index label, (index, label) ∈ placed ↔ DrawsLabel events index label := by
  intro events frame
  refine ⟨placements 0 events, ?_, pairwise_placements 0 events, fun index label => ?_⟩
  · rw [filter_texts_render, ← Drawing.labels_ofEvents options, Drawing.ofEvents,
      Drawing.labels_draw_eq options none 0, List.map_append, List.map_map]
    rfl
  · rw [mem_placements_iff]
    simp

end FlowCalibration
