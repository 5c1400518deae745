import FlowCalibration.Proofs.Decimal.Plain
import FlowCalibration.Proofs.Preview.Tags
import FlowCalibration.Proofs.Text.Words

/-!
# Numbers of pictures

Every number of a picture is a plain decimal, but for the radii of blobs.  A radius is written with
three places, and one that is not finite is written as a word.
-/

namespace FlowCalibration

namespace Tag

/-- Keys of attributes whose values are numbers. -/
def numericKeys : List String :=
  ["x", "y", "x1", "y1", "x2", "y2", "cx", "cy", "r", "width", "height", "stroke-width",
    "font-size"]

/-- Whether the value of an attribute is a number; the width of the whole picture is a length with
a unit. -/
def isNumeric (tag : Tag) (key : String) : Bool :=
  numericKeys.contains key && !(tag.name == "svg" && key == "width")

/-- The numbers of a tag with their keys.  A view box has several. -/
def numbers (tag : Tag) : List (String × String) :=
  tag.attributes.flatMap fun (key, value) =>
    if key = "viewBox" then (words value.toList).map fun word => (key, String.ofList word)
    else if tag.isNumeric key then [(key, value)]
    else []

end Tag

namespace Markup

/-- The numbers of the tags of a document with their keys. -/
def numbers (document : String) : List (String × String) :=
  (tags document).flatMap Tag.numbers

/-- An element is read as one tag with the given numbers. -/
def Shows (element : String) (numbers : List (String × String)) : Prop :=
  ∃ tag, Reads .content element.toList [tag] .content ∧ tag.numbers = numbers

section

variable {name : String} {pairs : List (String × String)}

theorem shows_emptyElement (writable : Writable name pairs) :
    Shows (emptyElement name pairs) (Tag.numbers ⟨name, pairs⟩) :=
  ⟨⟨name, pairs⟩, reads_emptyElement writable, rfl⟩

theorem shows_textElement (writable : Writable name pairs) {text : String}
    (noTag : '<' ∉ text.toList) :
    Shows (textElement name pairs text) (Tag.numbers ⟨name, pairs⟩) :=
  ⟨⟨name, pairs⟩, reads_textElement writable noTag, rfl⟩

end

namespace Shows

variable {element : String} {found : List (String × String)}

theorem reads (shows_found : Shows element found) :
    Reads .content element.toList (tags element) .content := by
  obtain ⟨tag, reads, _⟩ := shows_found
  rwa [reads.tags_eq]

theorem numbers_eq (shows_found : Shows element found) : numbers element = found := by
  obtain ⟨tag, reads, numbers⟩ := shows_found
  rw [Markup.numbers, reads.tags_eq, List.flatMap_singleton, numbers]

end Shows

end Markup

/-! ## Texts of numbers are values of attributes -/

namespace Double

theorem quote_notMem_number (value : Float) : '"' ∉ (number value).toList := fun member =>
  absurd (isNumberChar_of_mem_number member) (by decide)

theorem quote_notMem_fixed (places : Nat) (value : Float) : '"' ∉ (fixed places value).toList := by
  by_cases finite : value.isFinite = true
  · intro member
    have plain := (isPlainDecimal_fixed_iff places value).mpr finite
    exact absurd (plain.isNumberChar _ member) (by decide)
  · rw [← Binary64.isFinite_ofFloat] at finite
    rw [fixed, if_neg finite, nonFinite]
    split
    · rw [toList_signed]
      split <;> decide
    · decide

end Double

namespace SceneFrame

open Double (number)
open Markup (Shows)

/-! ## The numbers of each element -/

theorem shows_rect (x y width height : Float) :
    Shows
      (Markup.emptyElement "rect"
        [ ("x", number x), ("y", number y), ("width", number width), ("height", number height),
          ("fill", bedFill) ])
      [ ("x", number x), ("y", number y), ("width", number width), ("height", number height) ] := by
  refine Markup.shows_emptyElement ⟨by decide, by simp, ?_⟩
  simp only [List.forall_mem_cons, Double.quote_notMem_number]
  decide

theorem shows_gridLine (x₁ y₁ x₂ y₂ : Float) :
    Shows
      (Markup.emptyElement "line"
        [ ("x1", number x₁), ("y1", number y₁), ("x2", number x₂), ("y2", number y₂),
          ("stroke", gridStroke), ("stroke-width", number gridStrokeWidth) ])
      [ ("x1", number x₁), ("y1", number y₁), ("x2", number x₂), ("y2", number y₂),
        ("stroke-width", number gridStrokeWidth) ] := by
  refine Markup.shows_emptyElement ⟨by decide, by simp, ?_⟩
  simp only [List.forall_mem_cons, Double.quote_notMem_number]
  decide

theorem shows_segmentElement (frame : SceneFrame) (style : StrokeStyle) (segment : Segment) :
    Shows (frame.segmentElement style segment)
      [ ("x1", number (frame.toScene segment.start).x),
        ("y1", number (frame.toScene segment.start).y),
        ("x2", number (frame.toScene segment.finish).x),
        ("y2", number (frame.toScene segment.finish).y),
        ("stroke-width", number style.width) ] := by
  refine Markup.shows_emptyElement ⟨by decide, by simp, ?_⟩
  simp only [List.forall_mem_cons, Double.quote_notMem_number, Markup.notMem_escape]
  decide

theorem shows_blobElement (frame : SceneFrame) (options : ViewOptions) (blob : Blob) :
    Shows (frame.blobElement options blob)
      [ ("cx", number (frame.toScene blob.center).x), ("cy", number (frame.toScene blob.center).y),
        ("r", Double.fixed 3 (blobRadius options blob.extruded)),
        ("stroke-width", number options.blob.width) ] := by
  refine Markup.shows_emptyElement ⟨by decide, by simp, ?_⟩
  simp only [List.forall_mem_cons, Double.quote_notMem_number, Double.quote_notMem_fixed,
    Markup.notMem_escape]
  decide

theorem shows_labelElement (frame : SceneFrame) (options : ViewOptions) (label : PlacedLabel) :
    Shows (frame.labelElement options label)
      [ ("x", number ((frame.toScene label.anchor).x + labelOffset.x)),
        ("y", number ((frame.toScene label.anchor).y + labelOffset.y)),
        ("font-size", number options.fontSize) ] := by
  refine Markup.shows_textElement ⟨by decide, by simp, ?_⟩ (Markup.notMem_escape label.text).1
  simp only [List.forall_mem_cons, Double.quote_notMem_number, Markup.notMem_escape]
  decide

/-! ## The numbers of a picture -/

variable {frame : SceneFrame} {options : ViewOptions} {drawing : Drawing}

/-- An element is sound if it has no radius and its numbers are plain. -/
def Sound (element : String) : Prop :=
  ∃ found, Shows element found ∧
    ∀ number ∈ found, number.1 ≠ "r" ∧ IsPlainDecimal number.2.toList

theorem sound_bedElements (options : ViewOptions) :
    ∀ element ∈ bedElements options, Sound element := by
  simp only [bedElements, List.forall_mem_cons]
  refine ⟨⟨_, shows_rect _ _ _ _, ?_⟩, ⟨_, shows_rect _ _ _ _, ?_⟩, by simp⟩ <;>
    simp [IsPlainDecimal.number]

theorem sound_gridElements (options : ViewOptions) :
    ∀ element ∈ gridElements options, Sound element := by
  simp only [gridElements]
  split
  · simp only [List.forall_mem_append, List.forall_mem_map]
    constructor <;> intro position _ <;>
    · refine ⟨_, shows_gridLine _ _ _ _, ?_⟩
      simp [IsPlainDecimal.number]
  · simp

theorem sound_segmentElement (frame : SceneFrame) (style : StrokeStyle) (segment : Segment) :
    Sound (frame.segmentElement style segment) :=
  ⟨_, frame.shows_segmentElement style segment, by simp [IsPlainDecimal.number]⟩

theorem sound_labelElement (frame : SceneFrame) (options : ViewOptions) (label : PlacedLabel) :
    Sound (frame.labelElement options label) :=
  ⟨_, frame.shows_labelElement options label, by simp [IsPlainDecimal.number]⟩

/-- The elements of a picture are sound, or they are blobs of the drawing. -/
theorem sound_or_blob {element : String} (member : element ∈ frame.elements options drawing) :
    Sound element ∨ ∃ blob ∈ drawing.blobs, element = frame.blobElement options blob := by
  simp only [elements, List.mem_append, List.mem_map] at member
  rcases member with
    ((((bed | grid) | ⟨segment, _, rfl⟩) | ⟨segment, _, rfl⟩) | ⟨blob, blob_mem, rfl⟩) |
      ⟨label, _, rfl⟩
  · exact .inl (sound_bedElements options element bed)
  · exact .inl (sound_gridElements options element grid)
  · exact .inl (frame.sound_segmentElement _ segment)
  · exact .inl (frame.sound_segmentElement _ segment)
  · exact .inr ⟨blob, blob_mem, rfl⟩
  · exact .inl (frame.sound_labelElement options label)

/-- The tag of a whole picture. -/
def rootTag (frame : SceneFrame) : Tag :=
  { name := "svg"
    attributes :=
      [ ("xmlns", "http://www.w3.org/2000/svg"), ("width", "600px"),
        ("viewBox", "0 0 " ++ number frame.width ++ " " ++ number frame.height) ] }

theorem numbers_rootTag (frame : SceneFrame) :
    frame.rootTag.numbers =
      [ ("viewBox", "0"), ("viewBox", "0"), ("viewBox", number frame.width),
        ("viewBox", number frame.height) ] := by
  let sizes := [['0'], (number frame.width).toList, (number frame.height).toList]
  have zero : ∀ c ∈ ['0'], isBlank c = false := by simp [isBlank]
  have size (value : Float) :
      (number value).toList ≠ [] ∧ ∀ c ∈ (number value).toList, isBlank c = false :=
    ⟨Double.number_ne_nil value, fun c member =>
      Double.isBlank_of_isNumberChar (Double.isNumberChar_of_mem_number member)⟩
  have solid : ∀ text ∈ sizes, text ≠ [] ∧ ∀ c ∈ text, isBlank c = false := by
    simp only [sizes, List.forall_mem_cons]
    exact ⟨⟨by simp, rfl, by simp⟩, size _, size _, by simp⟩
  have split : words ("0 0 " ++ number frame.width ++ " " ++ number frame.height).toList =
      ['0'] :: sizes := by
    have joined := words_join (List.cons_ne_nil '0' []) zero
      (fun text member => (solid text member).1) (fun text member => (solid text member).2)
    simpa [sizes] using joined
  have box : frame.rootTag.numbers =
      (words ("0 0 " ++ number frame.width ++ " " ++ number frame.height).toList).map
        fun word => ("viewBox", String.ofList word) := by
    simp [rootTag, Tag.numbers, Tag.isNumeric, Tag.numericKeys]
  rw [box, split]
  simp [sizes]

theorem reads_element {element : String} (member : element ∈ frame.elements options drawing) :
    Markup.Reads .content element.toList (Markup.tags element) .content := by
  rcases sound_or_blob member with ⟨_, shown, _⟩ | ⟨blob, _, rfl⟩
  · exact shown.reads
  · exact (frame.shows_blobElement options blob).reads

theorem document_eq (frame : SceneFrame) (options : ViewOptions) (drawing : Drawing) :
    frame.document options drawing =
      "<" ++ "svg" ++ Markup.attributes frame.rootTag.attributes ++ ">\n" ++
        "\n".intercalate (frame.elements options drawing) ++ "\n</svg>" := by
  have head : "<svg xmlns=\"http://www.w3.org/2000/svg\" width=\"600px\" viewBox=\"0 0 " =
      "<" ++ "svg" ++ " " ++ "xmlns" ++ "=\"" ++ "http://www.w3.org/2000/svg" ++ "\"" ++
        " " ++ "width" ++ "=\"" ++ "600px" ++ "\"" ++ " " ++ "viewBox" ++ "=\"" ++ "0 0 " := by
    simp only [String.reduceAppend]
  have foot : "\">\n" = "\"" ++ ">\n" := by decide
  unfold document
  rw [head, foot]
  simp only [Markup.attributes, rootTag, List.foldr_cons, List.foldr_nil, String.append_assoc,
    String.append_empty, -String.reduceAppend]

/-- A picture is read as its own tag and the tags of its elements. -/
theorem tags_document (frame : SceneFrame) (options : ViewOptions) (drawing : Drawing) :
    Markup.tags (frame.document options drawing) =
      frame.rootTag :: (frame.elements options drawing).flatMap Markup.tags := by
  -- Head, elements and end of the picture are read one after the other.
  have writable : Markup.Writable "svg" frame.rootTag.attributes := by
    refine ⟨by decide, by simp [rootTag], ?_⟩
    simp only [rootTag, List.forall_mem_cons, String.toList_append, List.mem_append,
      Double.quote_notMem_number]
    decide
  have opened : Markup.Reads (.key frame.rootTag []) ['>', '\n'] [frame.rootTag] .content := rfl
  have closed : Markup.Reads .content ['\n', '<', '/', 's', 'v', 'g', '>'] [] .content := rfl
  have lines : Markup.Reads .content ("\n".intercalate (frame.elements options drawing)).toList
      ((frame.elements options drawing).flatMap Markup.tags) .content :=
    Markup.reads_lines fun _ => reads_element
  have reads := (((Markup.reads_tag writable).append opened).append lines).append closed
  have text : (frame.document options drawing).toList =
      ("<" ++ "svg" ++ Markup.attributes frame.rootTag.attributes).toList ++ ['>', '\n'] ++
        ("\n".intercalate (frame.elements options drawing)).toList ++
        ['\n', '<', '/', 's', 'v', 'g', '>'] := by
    rw [document_eq, String.toList_append, String.toList_append, String.toList_append]
    rfl
  rw [← text] at reads
  rw [reads.tags_eq, List.nil_append, List.append_nil, List.singleton_append]

theorem numbers_document (frame : SceneFrame) (options : ViewOptions) (drawing : Drawing) :
    Markup.numbers (frame.document options drawing) =
      frame.rootTag.numbers ++ (frame.elements options drawing).flatMap Markup.numbers := by
  rw [Markup.numbers, tags_document, List.flatMap_cons, List.flatMap_assoc]
  rfl

theorem plain_or_radius {found : String × String}
    (member : found ∈ Markup.numbers (frame.document options drawing)) :
    (found.1 ≠ "r" ∧ IsPlainDecimal found.2.toList) ∨ ∃ blob ∈ drawing.blobs,
      found = ("r", Double.fixed 3 (blobRadius options blob.extruded)) := by
  have zero := IsPlainDecimal.zero
  rw [numbers_document, List.mem_append] at member
  rcases member with root | member
  · left
    revert found
    simpa [numbers_rootTag, IsPlainDecimal.number] using zero
  · obtain ⟨element, element_mem, member⟩ := List.mem_flatMap.mp member
    rcases sound_or_blob element_mem with ⟨_, shown, plain⟩ | ⟨blob, blob_mem, rfl⟩
    · rw [shown.numbers_eq] at member
      exact .inl (plain found member)
    · rw [(frame.shows_blobElement options blob).numbers_eq] at member
      simp only [List.mem_cons, List.not_mem_nil, or_false] at member
      rcases member with rfl | rfl | rfl | rfl
      · exact .inl ⟨by simp, .number _⟩
      · exact .inl ⟨by simp, .number _⟩
      · exact .inr ⟨blob, blob_mem, rfl⟩
      · exact .inl ⟨by simp, .number _⟩

theorem radius_mem_numbers {blob : Blob} (member : blob ∈ drawing.blobs) :
    ("r", Double.fixed 3 (blobRadius options blob.extruded)) ∈
      Markup.numbers (frame.document options drawing) := by
  have element_mem : frame.blobElement options blob ∈ frame.elements options drawing := by
    simp only [elements, List.mem_append]
    exact .inl (.inr (List.mem_map_of_mem member))
  rw [numbers_document, List.mem_append, List.mem_flatMap]
  refine .inr ⟨_, element_mem, ?_⟩
  rw [(frame.shows_blobElement options blob).numbers_eq]
  simp

end SceneFrame

namespace Drawing

/-- The blob that an event draws. -/
def blob? (options : ViewOptions) : Event → Option Blob
  | .motion motion => if motion.isBlob options then some ⟨motion.start, motion.de⟩ else none
  | _ => none

theorem blobs_draw (options : ViewOptions) (pending : Option String) (events : List Event) :
    (draw options pending events).blobs = events.filterMap (blob? options) := by
  rw [List.filterMap_eq_flatMap_toList]
  induction events generalizing pending with
  | nil => rfl
  | cons event events induction =>
      cases event with
      | status message => exact induction _
      | positionSet state => exact induction _
      | motion motion =>
          have own : (if motion.isBlob options then [⟨motion.start, motion.de⟩] else []) =
              (blob? options (.motion motion)).toList := by
            rw [blob?]
            split <;> rfl
          rw [List.flatMap_cons, draw, own]
          split
          · exact congrArg (_ ++ ·) (induction pending)
          · exact congrArg (_ ++ ·) (induction none)

/-- The blobs of a run are those of its motions. -/
theorem mem_blobs_iff {options : ViewOptions} {events : List Event} {blob : Blob} :
    blob ∈ (ofEvents options events).blobs ↔
      ∃ motion, Event.motion motion ∈ events ∧ motion.isBlob options = true ∧
        blob = ⟨motion.start, motion.de⟩ := by
  rw [ofEvents, blobs_draw, List.mem_filterMap]
  constructor
  · rintro ⟨event, member, drawn⟩
    cases event with
    | status message => contradiction
    | positionSet state => contradiction
    | motion motion =>
        rw [blob?, Option.ite_none_right_eq_some, Option.some.injEq] at drawn
        exact ⟨motion, member, drawn.1, drawn.2.symm⟩
  · rintro ⟨motion, member, isBlob, rfl⟩
    exact ⟨.motion motion, member, if_pos isBlob⟩

end Drawing

theorem render_eq (options : ViewOptions) (program : String) :
    render options program =
      (SceneFrame.of options (Extents.ofEvents (replay program).1)).document options
        (Drawing.ofEvents options (replay program).1) := rfl

/-- Every number of a picture but the radii of its blobs is a plain decimal, whatever the options
and the program are.  The radii are plain too exactly when they are finite. -/
theorem render_numbers (options : ViewOptions) (program : String) :
    (∀ number ∈ Markup.numbers (render options program),
      number.1 ≠ "r" → IsPlainDecimal number.2.toList) ∧
    ((∀ number ∈ Markup.numbers (render options program), IsPlainDecimal number.2.toList) ↔
      ∀ motion, Event.motion motion ∈ (replay program).1 → motion.isBlob options = true →
        (blobRadius options motion.de).isFinite = true) := by
  rw [render_eq]
  refine ⟨?_, ?_, ?_⟩
  · intro number member notRadius
    rcases SceneFrame.plain_or_radius member with ⟨_, plain⟩ | ⟨blob, _, rfl⟩
    · exact plain
    · exact absurd rfl notRadius
  · intro plain motion motion_mem isBlob
    have blob_mem := Drawing.mem_blobs_iff.mpr ⟨motion, motion_mem, isBlob, rfl⟩
    have radius_plain := plain _ (SceneFrame.radius_mem_numbers blob_mem)
    exact (Double.isPlainDecimal_fixed_iff _ _).mp radius_plain
  · intro finite number member
    rcases SceneFrame.plain_or_radius member with ⟨_, plain⟩ | ⟨blob, blob_mem, rfl⟩
    · exact plain
    · obtain ⟨motion, motion_mem, isBlob, rfl⟩ := Drawing.mem_blobs_iff.mp blob_mem
      exact (Double.isPlainDecimal_fixed_iff _ _).mpr (finite motion motion_mem isBlob)

/-- The numbers of some options. -/
def ViewOptions.numbers (options : ViewOptions) : List Float :=
  [ options.bedWidth, options.bedLength, options.margin, options.gridStep,
    options.filamentDiameter, options.blobMinE, options.blobMaxXY, options.blobScale,
    options.travel.width, options.extrusion.width, options.blob.width, options.fontSize ]

/-- A program that extrudes so much in one place that the volume of the blob overflows. -/
def overfullProgram : String := "G1 E1e308"

/-- Its blob. -/
def overfullBlob : Blob := ⟨⟨0.0, 0.0⟩, 1e308⟩

/-- With default options, all numbers of which are finite, the radius of its blob is written as a
word. -/
theorem render_overfullProgram :
    (∀ value ∈ ViewOptions.numbers {}, value.isFinite = true) ∧
      ∃ number ∈ Markup.numbers (render {} overfullProgram),
        number = ("r", "inf") ∧ ¬ IsPlainDecimal number.2.toList := by
  have finite : ∀ value ∈ ViewOptions.numbers {}, value.isFinite = true := by decide +kernel
  have blobs : (Drawing.ofEvents {} (replay overfullProgram).1).blobs = [overfullBlob] := by
    decide +kernel
  have blob_mem : overfullBlob ∈ (Drawing.ofEvents {} (replay overfullProgram).1).blobs := by
    simp [blobs]
  have word : Double.fixed 3 (blobRadius {} overfullBlob.extruded) = "inf" := by decide +kernel
  have radius_mem : ("r", "inf") ∈ Markup.numbers (render {} overfullProgram) := by
    rw [render_eq, ← word]
    exact SceneFrame.radius_mem_numbers blob_mem
  refine ⟨finite, ("r", "inf"), radius_mem, rfl, fun plain => ?_⟩
  exact absurd (plain.isNumberChar 'i' (by decide)) (by decide)

end FlowCalibration
