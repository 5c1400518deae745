import FlowCalibration.Proofs.Toml.Values

/-!
# TOML documents of pairs read back

A document with one pair per line is read as the object of its pairs, when the keys differ and need
no quotes.  The statements are scanned line by line, and each of them writes one more key into the
table.
-/

namespace FlowCalibration

namespace Toml

/-- A pair on a line of its own: a key without quotes, and the text of its value. -/
structure PairLine where
  key : String
  text : String
  value : Json

namespace PairLine

/-- The text of a line. -/
def written (line : PairLine) : String :=
  line.key ++ " = " ++ line.text ++ "\n"

/-- The key needs no quotes, and the text stands for the value. -/
structure IsSound (line : PairLine) : Prop where
  key_ne : line.key.toList ≠ []
  bare : ∀ c ∈ line.key.toList, isBare c = true
  value : ReadsAs line.text line.value

/-- The statement of a line. -/
def statement (line : PairLine) : Statement :=
  .pair ⟨[], line.key⟩ line.value

variable {line : PairLine}

theorem toList_written (line : PairLine) (rest : List Char) :
    line.written.toList ++ rest =
      line.key.toList ++ (' ' :: '=' :: ' ' :: (line.text.toList ++ '\n' :: rest)) := by
  simp [written]

end PairLine

theorem ne_of_isBare {c : Char} (bare : isBare c = true) (other : Char)
    (notBare : isBare other = false) : c ≠ other := by
  rintro rfl
  rw [bare] at notBare
  contradiction

theorem skipSpaces_cons {first : Char} (notSpace : isSpace first = false) (tail : List Char) :
    skipSpaces (first :: tail) = first :: tail := by
  rw [skipSpaces, List.dropWhile_cons, notSpace]
  rfl

theorem isSpace_of_isBare {c : Char} (bare : isBare c = true) : isSpace c = false := by
  rw [isSpace]
  simp [ne_of_isBare bare ' ' rfl, ne_of_isBare bare '\t' rfl]

theorem PairLine.IsSound.head_written {line : PairLine} (sound : line.IsSound)
    (rest : List Char) :
    ∃ first tail, line.written.toList ++ rest = first :: tail ∧ isBare first = true := by
  obtain ⟨first, more, key⟩ := List.exists_cons_of_ne_nil sound.key_ne
  have first_bare : isBare first = true := sound.bare first (key ▸ List.mem_cons_self)
  rw [PairLine.toList_written, key, List.cons_append]
  exact ⟨first, _, rfl, first_bare⟩

theorem scanPath?_bare {key : List Char} (nonempty : key ≠ [])
    (bare : ∀ c ∈ key, isBare c = true) (rest : List Char) :
    scanPath? pathMax (key ++ ' ' :: '=' :: rest) =
      some (⟨[], String.ofList key⟩, '=' :: rest) := by
  obtain ⟨first, more, rfl⟩ := List.exists_cons_of_ne_nil nonempty
  have first_bare : isBare first = true := bare first List.mem_cons_self
  have blank : ∀ c ∈ (' ' :: '=' :: rest).head?, isBare c = false := by
    rintro c ⟨⟩
    rfl
  have scanned : scanKey? (first :: more ++ ' ' :: '=' :: rest) =
      some (first :: more, ' ' :: '=' :: rest) := by
    have taken := takeWhile_append_eq bare blank
    have left := dropWhile_append_eq bare blank
    rw [List.cons_append] at taken left ⊢
    rw [scanKey?, taken, left]
    · exact fun _ same => ne_of_isBare first_bare _ rfl (List.cons.inj same).1
    · exact fun _ same => ne_of_isBare first_bare _ rfl (List.cons.inj same).1
  have limit : pathMax = 78 + 1 := rfl
  have noSpaces : skipSpaces (first :: more ++ ' ' :: '=' :: rest) =
      first :: more ++ ' ' :: '=' :: rest := skipSpaces_cons (isSpace_of_isBare first_bare) _
  have behind : skipSpaces (' ' :: '=' :: rest) = '=' :: rest := rfl
  rw [limit, scanPath?, noSpaces, scanned]
  simp only [behind]
  rfl

variable {line : PairLine}

theorem scanStatement?_written (sound : line.IsSound) (rest : List Char) :
    scanStatement? (line.written.toList ++ rest) = some (line.statement, rest) := by
  obtain ⟨first, tail, front, bare⟩ := sound.head_written rest
  obtain ⟨start, behind, text, notSpace⟩ := sound.value.head
  have path : scanPath? pathMax (line.written.toList ++ rest) =
      some (⟨[], line.key⟩, '=' :: ' ' :: (line.text.toList ++ '\n' :: rest)) := by
    rw [PairLine.toList_written, scanPath?_bare sound.key_ne sound.bare, String.ofList_toList]
  have blank : skipSpaces (' ' :: (line.text.toList ++ '\n' :: rest)) =
      line.text.toList ++ '\n' :: rest := by
    rw [text]
    exact skipSpaces_cons notSpace _
  have lineFeed : afterLine? ('\n' :: rest) = some rest := rfl
  have notHeader (tail : List Char) : line.written.toList ++ rest ≠ '[' :: tail := by
    rw [front]
    exact fun same => ne_of_isBare bare '[' rfl (List.cons.inj same).1
  rw [scanStatement?, path]
  · simp only [blank, sound.value.scanned, lineFeed, Option.map_some]
    rfl
  · exact fun _ => notHeader _
  · exact fun _ => notHeader _

theorem afterLine?_written (sound : line.IsSound) (rest : List Char) :
    afterLine? (line.written.toList ++ rest) = none := by
  obtain ⟨first, tail, front, bare⟩ := sound.head_written rest
  rw [front, afterLine?, skipSpaces_cons (isSpace_of_isBare bare), skipComment]
  · simp only
    unfold afterBreak?
    split
    next same => exact absurd (List.cons.inj same).1 (ne_of_isBare bare _ rfl)
    next same => exact absurd (List.cons.inj same).1 (ne_of_isBare bare _ rfl)
    next => rfl
  · exact fun _ same => ne_of_isBare bare _ rfl (List.cons.inj same).1

theorem scanStatements?_join {lines : List PairLine} (sound : ∀ line ∈ lines, line.IsSound)
    {limit : Nat} (limited : lines.length ≤ limit) :
    scanStatements? limit (String.join (lines.map PairLine.written)).toList =
      some (lines.map PairLine.statement) := by
  induction lines generalizing limit with
  | nil => rw [scanStatements?]; rfl
  | cons line lines induction =>
      obtain ⟨line_sound, others⟩ := List.forall_mem_cons.mp sound
      obtain ⟨limit, rfl⟩ : ∃ more, limit = more + 1 :=
        ⟨limit - 1, (Nat.succ_pred_eq_of_pos (Nat.lt_of_lt_of_le (Nat.succ_pos _) limited)).symm⟩
      have text : (String.join ((line :: lines).map PairLine.written)).toList =
          line.written.toList ++ (String.join (lines.map PairLine.written)).toList := by
        simp [String.join_cons]
      obtain ⟨first, tail, front, bare⟩ := line_sound.head_written
        (String.join (lines.map PairLine.written)).toList
      have spaces := skipSpaces_cons (isSpace_of_isBare bare) tail
      rw [← front] at spaces
      rw [text, scanStatements?, spaces]
      split
      next empty => exact absurd (front.symm.trans empty) (List.cons_ne_nil _ _)
      next =>
        simp only [afterLine?_written line_sound, scanStatement?_written line_sound,
          induction others (Nat.le_of_succ_le_succ limited), Option.map_some, List.map_cons]

theorem length_le_join {lines : List PairLine} (sound : ∀ line ∈ lines, line.IsSound) :
    lines.length ≤ (String.join (lines.map PairLine.written)).toList.length := by
  induction lines with
  | nil => exact Nat.zero_le _
  | cons line lines induction =>
      obtain ⟨line_sound, others⟩ := List.forall_mem_cons.mp sound
      obtain ⟨first, tail, front, _⟩ := line_sound.head_written []
      have shorter := induction others
      rw [List.append_nil] at front
      rw [List.map_cons, String.join_cons, String.toList_append, front, List.length_append]
      simp only [List.length_cons]
      omega

/-! ## Tables -/

theorem step?_statement (line : PairLine) {root : TomlTable}
    (fresh : KeyTable.find? root line.key = none) :
    step? [] root line.statement =
      some ([], KeyTable.insert root line.key (.value line.value)) := by
  have notHeld : ¬ (([] : List String) ≠ [] ∧ TableOrigin.header ≠ .dotted ∨
      KeyTable.contains root line.key = true) := by
    simp [KeyTable.contains, fresh]
  simp only [PairLine.statement, step?, TomlTable.addPairAt?, TomlTable.within?,
    TomlTable.addPair?, if_neg notHeld, Option.map_some]

theorem toMembers_insert (root : TomlTable) (key : String) (value : Json) :
    TomlTable.toMembers (KeyTable.insert root key (.value value)) =
      KeyTable.insert (TomlTable.toMembers root) key value := by
  induction root with
  | nil => rfl
  | cons pair tail induction =>
      obtain ⟨other, held⟩ := pair
      simp only [KeyTable.insert, TomlTable.toMembers]
      split
      next => rfl
      next =>
        split
        next => rfl
        next => rw [TomlTable.toMembers, induction]

/-- Lines with keys that are not held yet are written into the table one after the other. -/
theorem foldlM_step? {lines : List PairLine} (nodup : (lines.map PairLine.key).Nodup)
    (root : TomlTable) (fresh : ∀ line ∈ lines, KeyTable.find? root line.key = none) :
    ∃ filled, (lines.map PairLine.statement).foldlM
        (fun (header, root) statement => step? header root statement) ([], root) =
          some ([], filled) ∧
      TomlTable.toMembers filled = KeyTable.insertAll (TomlTable.toMembers root)
        (lines.map fun line => (line.key, line.value)) := by
  induction lines generalizing root with
  | nil => exact ⟨root, rfl, rfl⟩
  | cons line lines induction =>
      obtain ⟨line_fresh, others⟩ := List.forall_mem_cons.mp fresh
      obtain ⟨notLater, nodup⟩ := List.nodup_cons.mp nodup
      have still_fresh (other : PairLine) (member : other ∈ lines) :
          KeyTable.find? (KeyTable.insert root line.key (.value line.value)) other.key = none := by
        have different : other.key ≠ line.key :=
          fun same => notLater (List.mem_map.mpr ⟨other, member, same⟩)
        rw [KeyTable.find?_insert, if_neg different]
        exact others other member
      obtain ⟨filled, run, members⟩ := induction nodup _ still_fresh
      refine ⟨filled, ?_, ?_⟩
      · rw [List.map_cons, List.foldlM_cons]
        simp only [step?_statement line line_fresh, Option.bind_eq_bind, Option.bind_some]
        exact run
      · rw [members, toMembers_insert]
        rfl

theorem build?_statements {lines : List PairLine} (nodup : (lines.map PairLine.key).Nodup) :
    (build? (lines.map PairLine.statement)).map TomlTable.toJson =
      some (.object (KeyTable.ofList (lines.map fun line => (line.key, line.value)))) := by
  obtain ⟨filled, run, members⟩ := foldlM_step? nodup [] (fun _ _ => rfl)
  simp only [build?, run, Option.map_some, TomlTable.toJson, members]
  rfl

theorem parse?_join {lines : List PairLine} (sound : ∀ line ∈ lines, line.IsSound)
    (nodup : (lines.map PairLine.key).Nodup) :
    parse? (String.join (lines.map PairLine.written)) =
      some (.object (KeyTable.ofList (lines.map fun line => (line.key, line.value)))) := by
  have scanned : scan? (String.join (lines.map PairLine.written)).toList =
      some (lines.map PairLine.statement) := by
    have scanned := scanStatements?_join sound (length_le_join sound)
    cases lines with
    | nil => rfl
    | cons line lines =>
        obtain ⟨first, tail, front, bare⟩ := (sound line List.mem_cons_self).head_written
          (String.join (lines.map PairLine.written)).toList
        rw [List.map_cons, String.join_cons, String.toList_append, front] at scanned ⊢
        rw [scan?]
        · exact scanned
        · exact fun _ same => ne_of_isBare bare _ rfl (List.cons.inj same).1
  rw [parse?, scanned, Option.bind_some, build?_statements nodup]

end Toml

end FlowCalibration
