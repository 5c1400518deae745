import FlowCalibration.Proofs.Preview.Tags

/-!
# Elements of documents

An element is given by the texts that are meant by it.  It is written with all its values and its
content escaped, and a reader that cuts a document at its angle brackets and undoes the entities
finds the element again: whatever the texts are, they neither open nor end a tag.
-/

namespace FlowCalibration

/-- An element with the texts that are meant by it. -/
structure Element where
  /-- Name of the element. -/
  name : String
  /-- Keys with their values, in order. -/
  attributes : List (String × String)
  /-- Text of an element that has content. -/
  content : Option String
  deriving DecidableEq

namespace Markup

/-- A text with its entities undone. -/
def unescaped : List Char → List Char
  | '&' :: 'a' :: 'm' :: 'p' :: ';' :: rest => '&' :: unescaped rest
  | '&' :: 'l' :: 't' :: ';' :: rest => '<' :: unescaped rest
  | '&' :: 'g' :: 't' :: ';' :: rest => '>' :: unescaped rest
  | '&' :: 'q' :: 'u' :: 'o' :: 't' :: ';' :: rest => '"' :: unescaped rest
  | '&' :: 'a' :: 'p' :: 'o' :: 's' :: ';' :: rest => '\'' :: unescaped rest
  | c :: rest => c :: unescaped rest
  | [] => []

/-- The text that an escaped text stands for. -/
def unescape (text : String) : String :=
  String.ofList (unescaped text.toList)

theorem unescaped_escaped (c : Char) (rest : List Char) :
    unescaped (escaped c ++ rest) = c :: unescaped rest := by
  rw [escaped.eq_def]
  split
  case h_6 notAmpersand _ _ _ _ =>
    rw [List.singleton_append, unescaped]
    all_goals exact fun _ ampersand => absurd ampersand notAmpersand
  all_goals rfl

theorem unescaped_flatMap_escaped (chars : List Char) :
    unescaped (chars.flatMap escaped) = chars := by
  induction chars with
  | nil => rfl
  | cons c chars induction => rw [List.flatMap_cons, unescaped_escaped, induction]

theorem unescape_escape (text : String) : unescape (escape text) = text := by
  rw [unescape, escape, String.toList_ofList, unescaped_flatMap_escaped, String.ofList_toList]

theorem escape_append (front back : String) :
    escape (front ++ back) = escape front ++ escape back := by
  rw [escape, escape, escape, String.toList_append, List.flatMap_append, String.ofList_append]

theorem flatMap_escaped_of_forall {chars : List Char}
    (plain : ∀ c ∈ chars, c ∉ ['&', '<', '>', '"', '\'']) : chars.flatMap escaped = chars := by
  induction chars with
  | nil => rfl
  | cons c chars induction =>
      obtain ⟨own, others⟩ := List.forall_mem_cons.mp plain
      have single : escaped c = [c] := by
        rw [escaped.eq_def]
        split <;> simp_all
      rw [List.flatMap_cons, single, induction others, List.singleton_append]

/-- A text without the characters that have an entity is written as it is. -/
theorem escape_of_forall {text : String}
    (plain : ∀ c ∈ text.toList, c ∉ ['&', '<', '>', '"', '\'']) : escape text = text := by
  rw [escape, flatMap_escaped_of_forall plain, String.ofList_toList]

/-! ## Documents cut at their angle brackets -/

/-- The parts of a document: what stands behind each of its opening angle brackets up to the next
one. -/
def parts (document : String) : List (List Char) :=
  (document.toList.splitOn '<').tail

theorem splitOn_parts {front : List Char} (front_noTag : '<' ∉ front) {found : List (List Char)}
    (noTag : ∀ part ∈ found, '<' ∉ part) :
    (front ++ found.flatMap ('<' :: ·)).splitOn '<' = front :: found := by
  induction found generalizing front with
  | nil =>
      rw [List.flatMap_nil, List.append_nil]
      exact List.splitOn_eq_singleton front_noTag
  | cons part found induction =>
      obtain ⟨part_noTag, others⟩ := List.forall_mem_cons.mp noTag
      have different : ∀ c ∈ front, (c == '<') = false :=
        fun c member => beq_false_of_ne (ne_of_mem_of_not_mem member front_noTag)
      rw [List.flatMap_cons, List.cons_append, List.splitOn,
        List.splitOnP_append_cons_of_forall_mem different '<' rfl]
      exact congrArg (front :: ·) (induction part_noTag others)

section

variable {document : String} {found : List (List Char)}

theorem parts_eq (noTag : ∀ part ∈ found, '<' ∉ part)
    (text : document.toList = found.flatMap ('<' :: ·)) : parts document = found := by
  rw [parts, text]
  exact congrArg List.tail (splitOn_parts List.not_mem_nil noTag)

/-- A document has one angle bracket for each of its parts. -/
theorem count_eq_length (noTag : ∀ part ∈ found, '<' ∉ part)
    (text : document.toList = found.flatMap ('<' :: ·)) :
    document.toList.count '<' = found.length := by
  have single : ∀ part ∈ found, (List.count '<' ∘ ('<' :: ·)) part = 1 := by
    intro part member
    simp [List.count_eq_zero.mpr (noTag part member)]
  rw [text, List.count_flatMap, List.map_congr_left single, List.map_const',
    List.sum_replicate_nat, Nat.mul_one]

end

/-! ## Characters of attributes -/

theorem notMem_attributes {pairs : List (String × String)} {c : Char}
    (notMark : c ∉ [' ', '=', '"'])
    (notMem : ∀ pair ∈ pairs, c ∉ pair.1.toList ∧ c ∉ pair.2.toList) :
    c ∉ (attributes pairs).toList := by
  simp only [List.mem_cons, List.not_mem_nil, or_false, not_or] at notMark
  induction pairs with
  | nil => simp [attributes]
  | cons pair pairs induction =>
      obtain ⟨⟨notKey, notValue⟩, others⟩ := List.forall_mem_cons.mp notMem
      have rest := induction others
      rw [attributes] at rest
      simp [attributes, notKey, notValue, rest, notMark]

theorem getLast?_attributes {pairs : List (String × String)} (nonempty : pairs ≠ []) :
    (attributes pairs).toList.getLast? = some '"' := by
  induction pairs with
  | nil => contradiction
  | cons pair pairs induction =>
      have text : (attributes (pair :: pairs)).toList =
          (" " ++ pair.1 ++ "=\"" ++ pair.2).toList ++ ['"'] ++ (attributes pairs).toList := by
        simp [attributes]
      rw [text, List.getLast?_append, List.getLast?_concat]
      cases pairs with
      | nil => rfl
      | cons next pairs => rw [induction (List.cons_ne_nil _ _), Option.some_or]

end Markup

namespace Element

open Markup

/-- The attributes as they stand in the document. -/
def pairs (element : Element) : List (String × String) :=
  element.attributes.map fun (key, value) => (key, escape value)

/-- An element as it stands in a document: its values and its content are escaped. -/
def written (element : Element) : String :=
  match element.content with
  | none => emptyElement element.name element.pairs
  | some text => textElement element.name element.pairs (escape text)

/-- The element that the part behind its angle bracket opens, with all entities undone.  A slash in
front of the closing bracket says that it has no content. -/
def ofPart? (part : List Char) : Option Element :=
  let front := part.takeWhile (· != '>')
  (scan (.name []) part).1.head?.map fun tag =>
    { name := tag.name
      attributes := tag.attributes.map fun (key, value) => (key, unescape value)
      content :=
        if front.getLast? = some '/' then none
        else some (unescape (String.ofList (part.drop (front.length + 1)))) }

end Element

/-- The elements that a document opens, in order. -/
def Markup.elements (document : String) : List Element :=
  (parts document).filterMap Element.ofPart?

namespace Element

open Markup

variable {element : Element}

/-- Whether an element can be written: it has attributes, and its name and their keys are read as
such. -/
structure IsClean (element : Element) : Prop where
  name : element.name.toList.all isNameChar = true
  nonempty : element.attributes ≠ []
  keys : ∀ pair ∈ element.attributes, pair.1.toList.all isNameChar = true

theorem IsClean.of_names (names : List String)
    (own : element.name :: element.attributes.map Prod.fst = names)
    (named : (names.all fun name => name.toList.all isNameChar) = true)
    (nonempty : element.attributes ≠ []) : element.IsClean := by
  rw [← own] at named
  obtain ⟨name, keys⟩ := List.forall_mem_cons.mp (List.all_eq_true.mp named)
  exact ⟨name, nonempty, List.forall_mem_map.mp keys⟩

theorem IsClean.writable (clean : element.IsClean) : Writable element.name element.pairs where
  name := clean.name
  nonempty := mt List.map_eq_nil_iff.mp clean.nonempty
  pairs := by
    refine List.forall_mem_map.mpr fun pair member => ?_
    exact ⟨clean.keys pair member, (notMem_escape pair.2).2.1⟩

/-- What stands between the angle bracket of an element and its end. -/
def head (element : Element) : List Char :=
  (element.name ++ Markup.attributes element.pairs).toList

theorem IsClean.notMem_head (clean : element.IsClean) {c : Char} (bracket : c = '<' ∨ c = '>') :
    c ∉ element.head := by
  have notNamed : isNameChar c = false := by rcases bracket with rfl | rfl <;> rfl
  have notMark : c ∉ [' ', '=', '"'] := by rcases bracket with rfl | rfl <;> decide
  have notIn {text : List Char} (named : text.all isNameChar = true) : c ∉ text := by
    intro member
    rw [List.all_eq_true.mp named c member] at notNamed
    contradiction
  have notEscaped (text : String) : c ∉ (escape text).toList := by
    rcases bracket with rfl | rfl
    · exact (notMem_escape text).1
    · exact (notMem_escape text).2.2
  rw [head, String.toList_append, List.mem_append, not_or]
  refine ⟨notIn clean.name, notMem_attributes notMark ?_⟩
  refine List.forall_mem_map.mpr fun pair member => ?_
  exact ⟨notIn (clean.keys pair member), notEscaped pair.2⟩

theorem IsClean.getLast?_head (clean : element.IsClean) : element.head.getLast? = some '"' := by
  rw [head, String.toList_append, List.getLast?_append,
    getLast?_attributes clean.writable.nonempty, Option.some_or]

/-- The parts of an element on a line of its own. -/
def lineParts (element : Element) : List (List Char) :=
  match element.content with
  | none => [element.head ++ "/>\n".toList]
  | some text =>
      [element.head ++ '>' :: (escape text).toList, ("/" ++ element.name ++ ">\n").toList]

theorem toList_written (element : Element) :
    element.written.toList ++ ['\n'] = element.lineParts.flatMap ('<' :: ·) := by
  rw [written, lineParts]
  cases element.content with
  | none => simp [emptyElement, head]
  | some text => simp [textElement, head]

theorem IsClean.notMem_lineParts (clean : element.IsClean) :
    ∀ part ∈ element.lineParts, '<' ∉ part := by
  have head_noTag := clean.notMem_head (.inl rfl)
  rw [lineParts]
  cases element.content with
  | none => simp [head_noTag]
  | some text =>
      have name_noTag : '<' ∉ element.name.toList := by
        intro member
        exact absurd (List.all_eq_true.mp clean.name _ member) (by decide)
      simp [head_noTag, notMem_escape, name_noTag]

/-- Behind its angle bracket, the head of an element is read up to its end. -/
theorem IsClean.reads_head (clean : element.IsClean) :
    Reads (.name []) element.head [] (.key ⟨element.name, element.pairs⟩ []) := by
  have reads := reads_tag clean.writable
  have text : ("<" ++ element.name ++ Markup.attributes element.pairs).toList =
      '<' :: element.head := by
    simp [head]
  rw [text, Reads, scan] at reads
  simpa [step, Reads, Prod.ext_iff] using reads

theorem unescape_pairs (element : Element) :
    (element.pairs.map fun (key, value) => (key, unescape value)) = element.attributes := by
  simp [pairs, Function.comp_def, unescape_escape]

/-- What a part opens is known from its front, the tag that is read in it and its content. -/
theorem ofPart?_eq {front back : List Char} {tag : Tag} {last : Place} (closed : '>' ∉ front)
    (reads : Reads (.name []) (front ++ '>' :: back) [tag] last) :
    ofPart? (front ++ '>' :: back) = some
      { name := tag.name
        attributes := tag.attributes.map fun (key, value) => (key, unescape value)
        content :=
          if front.getLast? = some '/' then none else some (unescape (String.ofList back)) } := by
  have before : ∀ c ∈ front, (c != '>') = true :=
    fun c member => bne_iff_ne.mpr (ne_of_mem_of_not_mem member closed)
  have front_eq : (front ++ '>' :: back).takeWhile (· != '>') = front := by
    rw [List.takeWhile_append_of_pos before]
    simp
  have back_eq : (front ++ '>' :: back).drop (front.length + 1) = back := by
    rw [List.drop_append]
    simp
  have tags_eq : (scan (.name []) (front ++ '>' :: back)).1 = [tag] := congrArg Prod.fst reads
  rw [ofPart?, front_eq, back_eq, tags_eq]
  rfl

theorem ofPart?_eq_none {part : List Char} {last : Place} (reads : Reads (.name []) part [] last) :
    ofPart? part = none := by
  have tags_eq : (scan (.name []) part).1 = [] := congrArg Prod.fst reads
  rw [ofPart?, tags_eq]
  rfl

theorem ofPart?_closing {name : String} (named : name.toList.all isNameChar = true) :
    ofPart? ("/" ++ name ++ ">\n").toList = none := by
  have slash : Reads (.name []) ['/'] [] .closing := rfl
  have lineFeed : Reads .content ['\n'] [] .content := rfl
  have reads := (slash.append (reads_closing named)).append lineFeed
  have text : ("/" ++ name ++ ">\n").toList = ['/'] ++ (name.toList ++ ['>']) ++ ['\n'] := by simp
  rw [text]
  exact ofPart?_eq_none reads

theorem IsClean.ofPart?_empty (clean : element.IsClean) (empty : element.content = none) :
    ofPart? (element.head ++ "/>\n".toList) = some element := by
  let tag : Tag := ⟨element.name, element.pairs⟩
  have ended : Reads (.key tag []) ['/', '>', '\n'] [tag] .content := rfl
  have reads : Reads (.name []) ((element.head ++ ['/']) ++ '>' :: ['\n']) [tag] .content := by
    simpa using clean.reads_head.append ended
  have closed : '>' ∉ element.head ++ ['/'] := by simp [clean.notMem_head (.inr rfl)]
  have part_eq : element.head ++ "/>\n".toList = (element.head ++ ['/']) ++ '>' :: ['\n'] := by simp
  rw [part_eq, ofPart?_eq closed reads]
  simp [tag, unescape_pairs, ← empty]

theorem IsClean.ofPart?_text (clean : element.IsClean) {text : String}
    (own : element.content = some text) :
    ofPart? (element.head ++ '>' :: (escape text).toList) = some element := by
  let tag : Tag := ⟨element.name, element.pairs⟩
  have ended : Reads (.key tag []) ['>'] [tag] .content := rfl
  have content := reads_content (notMem_escape text).1
  have reads : Reads (.name []) (element.head ++ '>' :: (escape text).toList) [tag] .content := by
    simpa using (clean.reads_head.append ended).append content
  have last : ¬ element.head.getLast? = some '/' := by
    rw [clean.getLast?_head]
    decide
  rw [ofPart?_eq (clean.notMem_head (.inr rfl)) reads]
  simp [tag, unescape_pairs, last, unescape_escape, ← own]

/-- The parts of the line of an element open the element and nothing else. -/
theorem IsClean.elements_lineParts (clean : element.IsClean) :
    element.lineParts.filterMap ofPart? = [element] := by
  rw [lineParts]
  cases own : element.content with
  | none =>
      rw [List.filterMap_cons, clean.ofPart?_empty own]
      rfl
  | some text =>
      rw [List.filterMap_cons, clean.ofPart?_text own, List.filterMap_cons,
        ofPart?_closing clean.name]
      rfl

theorem elements_lines {elements : List Element} (clean : ∀ element ∈ elements, element.IsClean) :
    (elements.flatMap lineParts).filterMap ofPart? = elements := by
  rw [List.filterMap_flatMap]
  induction elements with
  | nil => rfl
  | cons element elements induction =>
      obtain ⟨first, others⟩ := List.forall_mem_cons.mp clean
      rw [List.flatMap_cons, first.elements_lineParts, induction others, List.singleton_append]

theorem notMem_lines {elements : List Element} (clean : ∀ element ∈ elements, element.IsClean) :
    ∀ part ∈ elements.flatMap lineParts, '<' ∉ part := by
  intro part member
  obtain ⟨element, element_mem, member⟩ := List.mem_flatMap.mp member
  exact (clean element element_mem).notMem_lineParts part member

theorem length_lines {elements : List Element} {size : Nat}
    (sized : ∀ element ∈ elements, element.lineParts.length = size) :
    (elements.flatMap lineParts).length = elements.length * size := by
  rw [List.length_flatMap, List.map_congr_left sized, List.map_const', List.sum_replicate_nat]

theorem toList_lines (elements : List Element) (nonempty : elements ≠ []) :
    ("\n".intercalate (elements.map written)).toList ++ ['\n'] =
      (elements.flatMap lineParts).flatMap ('<' :: ·) := by
  induction elements with
  | nil => contradiction
  | cons element elements induction =>
      rw [List.flatMap_cons, List.flatMap_append, ← toList_written]
      cases elements with
      | nil => simp
      | cons next elements =>
          rw [← induction (List.cons_ne_nil _ _), List.map_cons, List.map_cons,
            String.intercalate_cons_cons, ← List.map_cons]
          simp

end Element

end FlowCalibration
