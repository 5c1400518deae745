import FlowCalibration.Preview.Scene

/-!
# Tags of documents

A document is read character by character, and every tag that opens an element is reported with its
attributes.  Names and keys are letters, digits and hyphens, and values stand in double quotes.  An
element that the picture writes is read as one tag with the attributes that were written: values
hold no quote, and text between tags holds no angle bracket.
-/

namespace FlowCalibration

/-- A tag that opens an element. -/
structure Tag where
  /-- Name of the element. -/
  name : String
  /-- Keys with their values, in order. -/
  attributes : List (String × String)
  deriving DecidableEq

namespace Markup

/-- Where a reader stands in a document; what it has seen of a name, key or value is kept last
character first. -/
inductive Place
  /-- Between tags. -/
  | content
  /-- In a tag that closes an element. -/
  | closing
  /-- In the name of a tag. -/
  | name (seen : List Char)
  /-- In a tag, before a value. -/
  | key (tag : Tag) (seen : List Char)
  /-- In the value of an attribute. -/
  | value (tag : Tag) (key : String) (seen : List Char)

/-- Whether a character can stand in a name or a key. -/
def isNameChar (c : Char) : Bool :=
  c.isAlphanum || c == '-'

/-- The text of characters that have been seen. -/
def seenText (seen : List Char) : String :=
  String.ofList seen.reverse

/-- Read a character: where the reader stands behind it, and the tag that it ends. -/
def step : Place → Char → Place × Option Tag
  | .content, c => (if c = '<' then .name [] else .content, none)
  | .closing, c => (if c = '>' then .content else .closing, none)
  | .name seen, c =>
      if c = '>' then (.content, some ⟨seenText seen, []⟩)
      else if c = '/' ∧ seen = [] then (.closing, none)
      else if isNameChar c then (.name (c :: seen), none)
      else (.key ⟨seenText seen, []⟩ [], none)
  | .key tag seen, c =>
      if c = '>' then (.content, some tag)
      else if c = '"' then (.value tag (seenText seen) [], none)
      else if isNameChar c then (.key tag (c :: seen), none)
      else (.key tag seen, none)
  | .value tag key seen, c =>
      if c = '"' then
        (.key { tag with attributes := tag.attributes ++ [(key, seenText seen)] } [], none)
      else (.value tag key (c :: seen), none)

/-- Read a text: the tags that end in it, and where the reader stands behind it. -/
def scan (place : Place) : List Char → List Tag × Place
  | [] => ([], place)
  | c :: rest =>
      let (next, tag) := step place c
      let (tags, last) := scan next rest
      (tag.toList ++ tags, last)

/-- The tags of a document. -/
def tags (document : String) : List Tag :=
  (scan .content document.toList).1

/-! ## Reading texts one after the other -/

/-- A text leads a reader from one place to another, and some tags end in it. -/
def Reads (first : Place) (text : List Char) (tags : List Tag) (last : Place) : Prop :=
  scan first text = (tags, last)

namespace Reads

theorem nil (place : Place) : Reads place [] [] place := rfl

theorem cons {first next last : Place} {c : Char} {text : List Char} {tag : Option Tag}
    {tags : List Tag} (stepped : step first c = (next, tag)) (rest : Reads next text tags last) :
    Reads first (c :: text) (tag.toList ++ tags) last := by
  rw [Reads] at rest
  rw [Reads, scan, stepped]
  simp only [rest]

theorem quiet_cons {first next last : Place} {c : Char} {text : List Char} {tags : List Tag}
    (stepped : step first c = (next, none)) (rest : Reads next text tags last) :
    Reads first (c :: text) tags last :=
  cons stepped rest

theorem append {first next last : Place} {front back : List Char} {front_tags back_tags : List Tag}
    (front_reads : Reads first front front_tags next)
    (back_reads : Reads next back back_tags last) :
    Reads first (front ++ back) (front_tags ++ back_tags) last := by
  induction front generalizing first front_tags with
  | nil =>
      obtain ⟨rfl, rfl⟩ := Prod.mk.inj front_reads
      exact back_reads
  | cons c front induction =>
      obtain ⟨rfl, last_eq⟩ := Prod.mk.inj front_reads
      rw [List.cons_append, List.append_assoc]
      exact cons rfl (induction (Prod.ext rfl last_eq))

/-- A document that is read to its end has the tags that end in it. -/
theorem tags_eq {document : String} {found : List Tag} {last : Place}
    (reads : Reads .content document.toList found last) : tags document = found :=
  congrArg Prod.fst reads

end Reads

/-! ## Reading elements -/

theorem reads_kept (place : List Char → Place) {text : List Char}
    (kept : ∀ c ∈ text, ∀ seen, step (place seen) c = (place (c :: seen), none))
    (seen : List Char) : Reads (place seen) text [] (place (text.reverse ++ seen)) := by
  induction text generalizing seen with
  | nil => exact .nil _
  | cons c text induction =>
      obtain ⟨first, rest⟩ := List.forall_mem_cons.mp kept
      rw [List.reverse_cons, List.append_assoc, List.singleton_append]
      exact .quiet_cons (first seen) (induction rest (c :: seen))

/-- Text between tags. -/
theorem reads_content {text : List Char} (noTag : '<' ∉ text) :
    Reads .content text [] .content := by
  refine reads_kept (fun _ => .content) (fun c member _ => ?_) []
  have different : c ≠ '<' := ne_of_mem_of_not_mem member noTag
  simp [step, different]

theorem ne_of_isNameChar {c : Char} (named : isNameChar c = true) :
    c ≠ '>' ∧ c ≠ '/' ∧ c ≠ '"' := by
  refine ⟨?_, ?_, ?_⟩ <;>
  · rintro rfl
    exact absurd named (by decide)

theorem reads_closing {name : List Char} (named : name.all isNameChar = true) :
    Reads .closing (name ++ ['>']) [] .content := by
  have ended : Reads .closing ['>'] [] .content := rfl
  refine (reads_kept (fun _ => .closing) (fun c member _ => ?_) []).append ended
  simp [step, ne_of_isNameChar (List.all_eq_true.mp named c member)]

theorem reads_name {name : List Char} (named : name.all isNameChar = true) :
    Reads (.name []) name [] (.name name.reverse) := by
  have reads := reads_kept .name (fun c member seen => by
    have char_named := List.all_eq_true.mp named c member
    simp [step, ne_of_isNameChar char_named, char_named]) []
  rwa [List.append_nil] at reads

theorem reads_key {key : List Char} (named : key.all isNameChar = true) (tag : Tag) :
    Reads (.key tag []) key [] (.key tag key.reverse) := by
  have reads := reads_kept (.key tag) (fun c member seen => by
    have char_named := List.all_eq_true.mp named c member
    simp [step, ne_of_isNameChar char_named, char_named]) []
  rwa [List.append_nil] at reads

theorem reads_value {value : List Char} (noQuote : '"' ∉ value) (tag : Tag) (key : String) :
    Reads (.value tag key []) value [] (.value tag key value.reverse) := by
  have reads := reads_kept (.value tag key) (fun c member seen => by
    have different : c ≠ '"' := ne_of_mem_of_not_mem member noQuote
    simp [step, different]) []
  rwa [List.append_nil] at reads

@[simp]
theorem seenText_reverse (text : String) : seenText text.toList.reverse = text := by
  rw [seenText, List.reverse_reverse, String.ofList_toList]

theorem reads_attribute {key value : String} (named : key.toList.all isNameChar = true)
    (noQuote : '"' ∉ value.toList) (tag : Tag) :
    Reads (.key tag []) (" " ++ key ++ "=\"" ++ value ++ "\"").toList []
      (.key { tag with attributes := tag.attributes ++ [(key, value)] } []) := by
  have key_reads := reads_key named tag
  have value_reads := reads_value noQuote tag key
  have blank : Reads (.key tag []) [' '] [] (.key tag []) := rfl
  have opened : Reads (.key tag key.toList.reverse) ['=', '"'] [] (.value tag key []) :=
    .quiet_cons rfl (.quiet_cons (by simp [step]) (.nil _))
  have closed : Reads (.value tag key value.toList.reverse) ['"'] []
      (.key { tag with attributes := tag.attributes ++ [(key, value)] } []) :=
    .quiet_cons (by simp [step]) (.nil _)
  simp only [String.toList_append]
  exact (((blank.append key_reads).append opened).append value_reads).append closed

/-- Whether a tag can be written: it has attributes, its name and their keys are read as such, and
no value holds a quote. -/
structure Writable (name : String) (pairs : List (String × String)) : Prop where
  name : name.toList.all isNameChar = true
  nonempty : pairs ≠ []
  pairs : ∀ pair ∈ pairs, pair.1.toList.all isNameChar = true ∧ '"' ∉ pair.2.toList

theorem reads_attributes {pairs : List (String × String)}
    (fit : ∀ pair ∈ pairs, pair.1.toList.all isNameChar = true ∧ '"' ∉ pair.2.toList) (tag : Tag) :
    Reads (.key tag []) (attributes pairs).toList []
      (.key { tag with attributes := tag.attributes ++ pairs } []) := by
  induction pairs generalizing tag with
  | nil =>
      rw [List.append_nil]
      exact .nil _
  | cons pair pairs induction =>
      obtain ⟨⟨named, noQuote⟩, others⟩ := List.forall_mem_cons.mp fit
      have first := reads_attribute named noQuote tag
      have rest := induction others { tag with attributes := tag.attributes ++ [pair] }
      have text : (attributes (pair :: pairs)).toList =
          (" " ++ pair.1 ++ "=\"" ++ pair.2 ++ "\"").toList ++ (attributes pairs).toList :=
        String.toList_append
      rw [List.append_assoc, List.singleton_append] at rest
      rw [text]
      exact first.append rest

section

variable {name : String} {pairs : List (String × String)}

theorem reads_tag (writable : Writable name pairs) :
    Reads .content ("<" ++ name ++ attributes pairs).toList [] (.key ⟨name, pairs⟩ []) := by
  obtain ⟨named, nonempty, fit⟩ := writable
  have opened : Reads .content ['<'] [] (.name []) := rfl
  have name_reads := reads_name named
  have pairs_read := reads_attributes fit ⟨name, []⟩
  -- The blank in front of the first attribute ends the name.
  have behind : Reads (.name name.toList.reverse) (attributes pairs).toList []
      (.key ⟨name, pairs⟩ []) := by
    obtain ⟨pair, others, rfl⟩ := List.exists_cons_of_ne_nil nonempty
    have text : (attributes (pair :: others)).toList =
        ' ' :: (pair.1 ++ "=\"" ++ pair.2 ++ "\"" ++ attributes others).toList := by
      simp [attributes]
    have same : step (.name name.toList.reverse) ' ' = step (.key ⟨name, []⟩ []) ' ' := by
      simp [step, isNameChar]
    rw [text] at pairs_read ⊢
    rw [Reads, scan, same]
    exact pairs_read
  simp only [String.toList_append]
  exact (opened.append name_reads).append behind

theorem reads_emptyElement (writable : Writable name pairs) :
    Reads .content (emptyElement name pairs).toList [⟨name, pairs⟩] .content := by
  have ended : Reads (.key ⟨name, pairs⟩ []) ['/', '>'] [⟨name, pairs⟩] .content := rfl
  rw [emptyElement, String.toList_append]
  exact (reads_tag writable).append ended

theorem reads_textElement (writable : Writable name pairs) {text : String}
    (noTag : '<' ∉ text.toList) :
    Reads .content (textElement name pairs text).toList [⟨name, pairs⟩] .content := by
  have ended : Reads (.key ⟨name, pairs⟩ []) ['>'] [⟨name, pairs⟩] .content := rfl
  have slash : Reads .content ['<', '/'] [] .closing := rfl
  have closed := reads_closing writable.name
  have characters : (textElement name pairs text).toList =
      ("<" ++ name ++ attributes pairs).toList ++ ['>'] ++ text.toList ++
        (['<', '/'] ++ (name.toList ++ ['>'])) := by
    simp [textElement]
  rw [characters]
  exact (((reads_tag writable).append ended).append (reads_content noTag)).append
    (slash.append closed)

end

theorem reads_lines {elements : List String}
    (reads : ∀ element ∈ elements, Reads .content element.toList (tags element) .content) :
    Reads .content ("\n".intercalate elements).toList (elements.flatMap tags) .content := by
  induction elements with
  | nil => exact .nil _
  | cons element elements induction =>
      obtain ⟨first, others⟩ := List.forall_mem_cons.mp reads
      cases elements with
      | nil => simpa using first
      | cons next elements =>
          have lineFeed : Reads .content ['\n'] [] .content := rfl
          rw [String.intercalate_cons_cons, String.append_assoc, String.toList_append,
            String.toList_append]
          exact first.append (lineFeed.append (induction others))

/-! ## Escaped text -/

theorem notMem_escaped (c : Char) : '<' ∉ escaped c ∧ '"' ∉ escaped c ∧ '>' ∉ escaped c := by
  rw [escaped.eq_def]
  split
  case h_6 notLess notGreater notQuote _ =>
    simp [Ne.symm notLess, Ne.symm notQuote, Ne.symm notGreater]
  all_goals decide

theorem notMem_escape (text : String) :
    '<' ∉ (escape text).toList ∧ '"' ∉ (escape text).toList ∧ '>' ∉ (escape text).toList := by
  simp only [escape, String.toList_ofList, List.mem_flatMap, not_exists, not_and]
  exact ⟨fun c _ => (notMem_escaped c).1, fun c _ => (notMem_escaped c).2.1,
    fun c _ => (notMem_escaped c).2.2⟩

end Markup

end FlowCalibration
