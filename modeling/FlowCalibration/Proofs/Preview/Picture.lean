import FlowCalibration.Proofs.Preview.Elements
import FlowCalibration.Proofs.Preview.Layers

/-!
# Pictures as elements

The picture of a program consists of the elements of its layers, one layer above the other.  Each
of them comes from the bed, from a motion of the run or from a label that is placed.  Colours, fonts
and labels are any texts: as they are escaped wherever they stand, the picture is read as these
elements again, and it has no other angle brackets than theirs.
-/

namespace FlowCalibration

/-! ## Numbers are written as they are -/

namespace Double

theorem notMem_entities_of_isNumberChar {c : Char} (numeric : isNumberChar c = true) :
    c ∉ ['&', '<', '>', '"', '\''] := by
  simp only [List.mem_cons, List.not_mem_nil, or_false]
  rintro (rfl | rfl | rfl | rfl | rfl) <;> exact absurd numeric (by decide)

@[simp]
theorem escape_number (value : Float) : Markup.escape (number value) = number value :=
  Markup.escape_of_forall fun _ member =>
    notMem_entities_of_isNumberChar (isNumberChar_of_mem_number member)

@[simp]
theorem escape_fixed (places : Nat) (value : Float) :
    Markup.escape (fixed places value) = fixed places value := by
  -- A value that is not finite is written as a word, which is no plain decimal.
  by_cases finite : value.isFinite = true
  · have plain := (isPlainDecimal_fixed_iff places value).mpr finite
    exact Markup.escape_of_forall fun _ member =>
      notMem_entities_of_isNumberChar (plain.isNumberChar _ member)
  · rw [← Binary64.isFinite_ofFloat] at finite
    rw [fixed, if_neg finite, nonFinite]
    split
    · cases (Binary64.ofFloat value).negative <;> decide
    · decide

end Double

/-! ## Scenes -/

/-- The elements of a picture, layer by layer. -/
structure Scene where
  /-- The bed and the strip with its front edge. -/
  bed : List Element
  /-- The lines of the grid. -/
  grid : List Element
  /-- The segments without extrusion. -/
  travel : List Element
  /-- The segments with extrusion. -/
  extrusion : List Element
  /-- The blobs. -/
  blobs : List Element
  /-- The labels. -/
  labels : List Element

namespace Scene

/-- The elements from the lowest to the highest layer. -/
def elements (scene : Scene) : List Element :=
  scene.bed ++ scene.grid ++ scene.travel ++ scene.extrusion ++ scene.blobs ++ scene.labels

/-- The lines of a picture. -/
def lines (scene : Scene) : List Element :=
  scene.grid ++ scene.travel ++ scene.extrusion

theorem elements_eq_layers (scene : Scene) :
    scene.elements = scene.bed ++ scene.lines ++ scene.blobs ++ scene.labels := by
  simp only [elements, lines, List.append_assoc]

/-- Each layer has elements of its own kind, and only labels have content. -/
structure IsLayered (scene : Scene) : Prop where
  rects : ∀ element ∈ scene.bed, element.name = "rect" ∧ element.content = none
  lines : ∀ element ∈ scene.lines, element.name = "line" ∧ element.content = none
  circles : ∀ element ∈ scene.blobs, element.name = "circle" ∧ element.content = none
  texts : ∀ element ∈ scene.labels, element.name = "text" ∧ element.content ≠ none

end Scene

namespace SceneFrame

open Double (number)

/-- A rectangle of the bed. -/
def bedRect (options : ViewOptions) (y width height : Float) : Element where
  name := "rect"
  attributes :=
    [ ("x", number options.margin), ("y", number y), ("width", number width),
      ("height", number height), ("fill", bedFill) ]
  content := none

/-- A line of the grid. -/
def gridLine (x1 y1 x2 y2 : Float) : Element where
  name := "line"
  attributes :=
    [ ("x1", number x1), ("y1", number y1), ("x2", number x2), ("y2", number y2),
      ("stroke", gridStroke), ("stroke-width", number gridStrokeWidth) ]
  content := none

variable (frame : SceneFrame) (options : ViewOptions)

/-- The line of a motion. -/
def motionLine (style : StrokeStyle) (motion : Motion) : Element :=
  let start := frame.toScene motion.start
  let finish := frame.toScene motion.finish
  { name := "line"
    attributes :=
      [ ("stroke-dasharray", "2 1"), ("x1", number start.x), ("y1", number start.y),
        ("x2", number finish.x), ("y2", number finish.y), ("stroke", style.color),
        ("stroke-width", number style.width), ("stroke-linecap", "round") ]
    content := none }

/-- The circle of a motion that draws a blob. -/
def blobCircle (motion : Motion) : Element :=
  let center := frame.toScene motion.start
  { name := "circle"
    attributes :=
      [ ("cx", number center.x), ("cy", number center.y),
        ("r", Double.fixed 3 (blobRadius options motion.de)), ("fill", "none"),
        ("stroke", options.blob.color), ("stroke-width", number options.blob.width) ]
    content := none }

/-- The text of a label. -/
def labelText (label : PlacedLabel) : Element :=
  let anchor := frame.toScene label.anchor
  { name := "text"
    attributes :=
      [ ("x", number (anchor.x + labelOffset.x)), ("y", number (anchor.y + labelOffset.y)),
        ("font-family", options.fontFamily), ("font-size", number options.fontSize),
        ("fill", labelFill) ]
    content := some label.text }

/-- The bed and the strip with its front edge. -/
def bedRects : List Element :=
  [ bedRect options options.margin options.bedWidth options.bedLength,
    bedRect options (options.margin + options.bedLength) (options.bedWidth / 2.0)
      (options.bedLength / 25.0) ]

/-- The lines of the grid: first across X, then across Y. -/
def gridLines : List Element :=
  let margin := options.margin
  if options.gridStep > 0.0 then
    (gridPositions margin options.bedWidth options.gridStep).map
        (fun x => gridLine x margin x (margin + options.bedLength)) ++
      (gridPositions margin options.bedLength options.gridStep).map
        (fun y => gridLine margin y (margin + options.bedWidth) y)
  else []

/-- The scene of a run: one line for each motion that leaves its place, one circle for each motion
that draws a blob, and the labels that are placed. -/
def scene (events : List Event) : Scene where
  bed := bedRects options
  grid := gridLines options
  travel :=
    ((motions events).filter (·.segment? = some .travel)).map (frame.motionLine options.travel)
  extrusion :=
    ((motions events).filter (·.segment? = some .extrusion)).map
      (frame.motionLine options.extrusion)
  blobs := ((motions events).filter (·.isBlob options)).map (frame.blobCircle options)
  labels := (placedLabels events).map (frame.labelText options)

/-- The element of a whole picture; its text up to the first element is a line feed. -/
def root : Element :=
  ⟨"svg", frame.rootTag.attributes, some "\n"⟩

/-! ## The elements of a picture are written -/

theorem written_bedRect (y width height : Float) :
    (bedRect options y width height).written =
      Markup.emptyElement "rect"
        [ ("x", number options.margin), ("y", number y), ("width", number width),
          ("height", number height), ("fill", bedFill) ] := by
  have fill : Markup.escape bedFill = bedFill := by decide
  simp [Element.written, Element.pairs, bedRect, fill]

theorem written_gridLine (x1 y1 x2 y2 : Float) :
    (gridLine x1 y1 x2 y2).written =
      Markup.emptyElement "line"
        [ ("x1", number x1), ("y1", number y1), ("x2", number x2), ("y2", number y2),
          ("stroke", gridStroke), ("stroke-width", number gridStrokeWidth) ] := by
  have stroke : Markup.escape gridStroke = gridStroke := by decide
  simp [Element.written, Element.pairs, gridLine, stroke]

theorem written_motionLine (style : StrokeStyle) (motion : Motion) :
    (frame.motionLine style motion).written = frame.segmentElement style motion.path := by
  have dashes : Markup.escape "2 1" = "2 1" := by decide
  have round : Markup.escape "round" = "round" := by decide
  simp [Element.written, Element.pairs, motionLine, segmentElement, Motion.path, dashes, round]

theorem written_blobCircle (motion : Motion) :
    (frame.blobCircle options motion).written = frame.blobElement options motion.blob := by
  have fill : Markup.escape "none" = "none" := by decide
  simp [Element.written, Element.pairs, blobCircle, blobElement, Motion.blob, fill]

theorem written_labelText (label : PlacedLabel) :
    (frame.labelText options label).written = frame.labelElement options label := by
  have fill : Markup.escape labelFill = labelFill := by decide
  simp [Element.written, Element.pairs, labelText, labelElement, fill]

theorem bedElements_eq : bedElements options = (bedRects options).map Element.written := by
  simp only [bedRects, List.map_cons, written_bedRect]
  rfl

theorem gridElements_eq : gridElements options = (gridLines options).map Element.written := by
  rw [gridElements, gridLines]
  split
  · simp only [List.map_append, List.map_map, Function.comp_def, written_gridLine]
  · rfl

theorem elements_eq (events : List Event) :
    frame.elements options (Drawing.ofEvents options events) =
      (frame.scene options events).elements.map Element.written := by
  have travel : (Drawing.ofEvents options events).travel =
      ((motions events).filter (·.segment? = some .travel)).map Motion.path :=
    Drawing.segments_draw options none events .travel
  have extrusion : (Drawing.ofEvents options events).extrusion =
      ((motions events).filter (·.segment? = some .extrusion)).map Motion.path :=
    Drawing.segments_draw options none events .extrusion
  have blobs : (Drawing.ofEvents options events).blobs =
      ((motions events).filter (·.isBlob options)).map Motion.blob :=
    Drawing.blobs_draw_eq options none events
  rw [elements, travel, extrusion, blobs, Drawing.labels_ofEvents, bedElements_eq, gridElements_eq]
  simp only [Scene.elements, scene, List.map_append, List.map_map, Function.comp_def,
    written_motionLine, written_blobCircle, written_labelText]

/-! ## The elements of a picture are read -/

theorem forall_mem_gridLines {property : Element → Prop}
    (line : ∀ x1 y1 x2 y2, property (gridLine x1 y1 x2 y2)) :
    ∀ element ∈ gridLines options, property element := by
  rw [gridLines]
  split
  · simp only [List.forall_mem_append, List.forall_mem_map]
    exact ⟨fun _ _ => line _ _ _ _, fun _ _ => line _ _ _ _⟩
  · exact List.forall_mem_nil _

theorem isLayered_scene (events : List Event) : (frame.scene options events).IsLayered where
  rects := List.forall_mem_cons.mpr ⟨⟨rfl, rfl⟩, List.forall_mem_singleton.mpr ⟨rfl, rfl⟩⟩
  lines := by
    simp only [Scene.lines, scene, List.forall_mem_append, List.forall_mem_map]
    refine ⟨⟨forall_mem_gridLines options ?_, ?_⟩, ?_⟩
    · exact fun _ _ _ _ => ⟨rfl, rfl⟩
    · exact fun _ _ => ⟨rfl, rfl⟩
    · exact fun _ _ => ⟨rfl, rfl⟩
  circles := List.forall_mem_map.mpr fun _ _ => ⟨rfl, rfl⟩
  texts := List.forall_mem_map.mpr fun _ _ => ⟨rfl, Option.some_ne_none _⟩

theorem isClean_bedRect (y width height : Float) : (bedRect options y width height).IsClean :=
  .of_names ["rect", "x", "y", "width", "height", "fill"] rfl (by decide) (List.cons_ne_nil _ _)

theorem isClean_gridLine (x1 y1 x2 y2 : Float) : (gridLine x1 y1 x2 y2).IsClean :=
  .of_names ["line", "x1", "y1", "x2", "y2", "stroke", "stroke-width"] rfl (by decide)
    (List.cons_ne_nil _ _)

theorem isClean_motionLine (style : StrokeStyle) (motion : Motion) :
    (frame.motionLine style motion).IsClean :=
  .of_names
    ["line", "stroke-dasharray", "x1", "y1", "x2", "y2", "stroke", "stroke-width", "stroke-linecap"]
    rfl (by decide) (List.cons_ne_nil _ _)

theorem isClean_blobCircle (motion : Motion) : (frame.blobCircle options motion).IsClean :=
  .of_names ["circle", "cx", "cy", "r", "fill", "stroke", "stroke-width"] rfl (by decide)
    (List.cons_ne_nil _ _)

theorem isClean_labelText (label : PlacedLabel) : (frame.labelText options label).IsClean :=
  .of_names ["text", "x", "y", "font-family", "font-size", "fill"] rfl (by decide)
    (List.cons_ne_nil _ _)

theorem isClean_root : frame.root.IsClean :=
  .of_names ["svg", "xmlns", "width", "viewBox"] rfl (by decide) (List.cons_ne_nil _ _)

theorem isClean_scene (events : List Event) :
    ∀ element ∈ (frame.scene options events).elements, element.IsClean := by
  simp only [Scene.elements, scene, bedRects, List.forall_mem_append, List.forall_mem_map,
    List.forall_mem_cons]
  refine ⟨⟨⟨⟨⟨⟨?_, ?_, List.forall_mem_nil _⟩, ?_⟩, ?_⟩, ?_⟩, ?_⟩, ?_⟩
  · exact isClean_bedRect options _ _ _
  · exact isClean_bedRect options _ _ _
  · exact forall_mem_gridLines options isClean_gridLine
  · exact fun motion _ => frame.isClean_motionLine options.travel motion
  · exact fun motion _ => frame.isClean_motionLine options.extrusion motion
  · exact fun motion _ => frame.isClean_blobCircle options motion
  · exact fun label _ => frame.isClean_labelText options label

theorem pairs_root : frame.root.pairs = frame.rootTag.attributes := by
  have sizes : Markup.escape ("0 0 " ++ number frame.width ++ " " ++ number frame.height) =
      "0 0 " ++ number frame.width ++ " " ++ number frame.height := by
    have zeros : Markup.escape "0 0 " = "0 0 " := by decide
    have blank : Markup.escape " " = " " := by decide
    simp only [Markup.escape_append, zeros, blank, Double.escape_number]
  have space : Markup.escape "http://www.w3.org/2000/svg" = "http://www.w3.org/2000/svg" := by
    decide
  have width : Markup.escape "600px" = "600px" := by decide
  simp only [Element.pairs, root, rootTag, List.map_cons, List.map_nil, sizes, space, width]

/-- The parts of the picture of a run: its root, the lines of its elements, and its end. -/
def documentParts (events : List Event) : List (List Char) :=
  (frame.root.head ++ ['>', '\n']) ::
    ((frame.scene options events).elements.flatMap Element.lineParts ++ ["/svg>".toList])

theorem toList_document (events : List Event) :
    (frame.document options (Drawing.ofEvents options events)).toList =
      (frame.documentParts options events).flatMap ('<' :: ·) := by
  have nonempty : (frame.scene options events).elements ≠ [] := List.cons_ne_nil _ _
  have lines := Element.toList_lines _ nonempty
  have head : frame.root.head = ("svg" ++ Markup.attributes frame.rootTag.attributes).toList := by
    rw [Element.head, pairs_root]
    rfl
  rw [document_eq, elements_eq, documentParts, List.flatMap_cons, List.flatMap_append, ← lines,
    head]
  simp

theorem notMem_documentParts (events : List Event) :
    ∀ part ∈ frame.documentParts options events, '<' ∉ part := by
  have root := frame.isClean_root.notMem_head (.inl rfl)
  have lines := Element.notMem_lines (frame.isClean_scene options events)
  refine List.forall_mem_cons.mpr ⟨by simp [root], List.forall_mem_append.mpr ⟨lines, ?_⟩⟩
  exact List.forall_mem_singleton.mpr (by decide)

/-- A picture has one angle bracket for its root, one for its end, and those of its elements. -/
theorem length_documentParts (events : List Event) :
    (frame.documentParts options events).length =
      2 + ((frame.scene options events).elements.flatMap Element.lineParts).length := by
  rw [documentParts, List.length_cons, List.length_append, List.length_singleton]
  omega

/-- The parts of a picture open its root and its elements. -/
theorem elements_documentParts (events : List Event) :
    (frame.documentParts options events).filterMap Element.ofPart? =
      frame.root :: (frame.scene options events).elements := by
  have lineFeed : (Markup.escape "\n").toList = ['\n'] := by decide
  have opened : Element.ofPart? (frame.root.head ++ '>' :: (Markup.escape "\n").toList) =
      some frame.root :=
    frame.isClean_root.ofPart?_text rfl
  have ended : Element.ofPart? "/svg>".toList = none := by decide
  rw [lineFeed] at opened
  rw [documentParts, List.filterMap_cons, opened, List.filterMap_append,
    Element.elements_lines (frame.isClean_scene options events), List.filterMap_cons, ended,
    List.filterMap_nil, List.append_nil]

end SceneFrame

namespace Scene.IsLayered

variable {scene : Scene}

/-- The angle brackets of layers: one for each element, and one more for each text. -/
theorem length_lines (layered : scene.IsLayered) :
    (scene.elements.flatMap Element.lineParts).length =
      scene.bed.length + scene.lines.length + scene.blobs.length + 2 * scene.labels.length := by
  have single {element : Element} (empty : element.content = none) :
      element.lineParts.length = 1 := by
    rw [Element.lineParts, empty]
    rfl
  have double {element : Element} (given : element.content ≠ none) :
      element.lineParts.length = 2 := by
    obtain ⟨text, own⟩ := Option.ne_none_iff_exists'.mp given
    rw [Element.lineParts, own]
    rfl
  have rects := Element.length_lines fun element member => single (layered.rects element member).2
  have lines := Element.length_lines fun element member => single (layered.lines element member).2
  have circles :=
    Element.length_lines fun element member => single (layered.circles element member).2
  have texts := Element.length_lines fun element member => double (layered.texts element member).2
  simp only [elements_eq_layers, List.flatMap_append, List.length_append, rects, lines, circles,
    texts]
  omega

end Scene.IsLayered

/-- The picture of a program is its opening tag, the elements of its scene on lines of their own,
and its closing tag.  Whatever the colours, the fonts and the labels are, it has no other angle
brackets than those of these elements, and with the entities undone it is read as its root and these
elements. -/
theorem render_scene (options : ViewOptions) (program : String) :
    let events := (replay program).1
    let frame := SceneFrame.of options (Extents.ofEvents events)
    let scene := frame.scene options events
    render options program =
      "<svg" ++ Markup.attributes frame.rootTag.attributes ++ ">\n" ++
        "\n".intercalate (scene.elements.map Element.written) ++ "\n</svg>" ∧
    scene.IsLayered ∧ scene.bed.length = 2 ∧
    (render options program).toList.count '<' =
      2 + scene.bed.length + scene.lines.length + scene.blobs.length + 2 * scene.labels.length ∧
    Markup.elements (render options program) = frame.root :: scene.elements := by
  intro events frame scene
  have layered : scene.IsLayered := frame.isLayered_scene options events
  have text : render options program = frame.document options (Drawing.ofEvents options events) :=
    render_eq options program
  have noTag := frame.notMem_documentParts options events
  have characters := frame.toList_document options events
  rw [text]
  refine ⟨?_, layered, rfl, ?_, ?_⟩
  · rw [SceneFrame.document_eq, SceneFrame.elements_eq]
    rfl
  · rw [Markup.count_eq_length noTag characters, SceneFrame.length_documentParts,
      layered.length_lines]
    simp only [Nat.add_assoc]
  · rw [Markup.elements, Markup.parts_eq noTag characters, SceneFrame.elements_documentParts]

end FlowCalibration
