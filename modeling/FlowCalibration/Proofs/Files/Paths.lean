import FlowCalibration.Proofs.Files.Workspace

/-!
# Names in directories

The path of a name in a directory leads to that name in the place of the directory, whatever the
path of the directory looks like.  Directories lead to the same places as long as none of them is
taken away.
-/

namespace FlowCalibration

namespace Path

/-! ## Pieces -/

theorem split_ne_nil (text : List Char) : split text ≠ [] := by
  fun_cases split text <;> simp_all

theorem split_slash_cons (tail : List Char) : split ('/' :: tail) = [] :: split tail :=
  rfl

theorem split_cons {c : Char} (inside : c ≠ '/') (tail : List Char) :
    ∃ piece rest, split tail = piece :: rest ∧ split (c :: tail) = (c :: piece) :: rest := by
  obtain ⟨piece, rest, split_eq⟩ := List.exists_cons_of_ne_nil (split_ne_nil tail)
  refine ⟨piece, rest, split_eq, ?_⟩
  rw [split, split_eq]
  exact inside

theorem split_append (front back : List Char) :
    split (front ++ '/' :: back) = split front ++ split back := by
  induction front with
  | nil => rfl
  | cons c front induction =>
      by_cases slash : c = '/'
      · subst slash
        rw [List.cons_append, split_slash_cons, split_slash_cons, induction, List.cons_append]
      · obtain ⟨piece, rest, tail_eq, split_eq⟩ := split_cons slash (front ++ '/' :: back)
        obtain ⟨piece', rest', tail_eq', split_eq'⟩ := split_cons slash front
        rw [induction, tail_eq', List.cons_append] at tail_eq
        obtain ⟨rfl, rfl⟩ := List.cons.inj tail_eq
        rw [List.cons_append, split_eq, split_eq', List.cons_append]

theorem split_of_notMem {text : List Char} (plain : '/' ∉ text) : split text = [text] := by
  induction text with
  | nil => rfl
  | cons c text induction =>
      rw [List.mem_cons, not_or] at plain
      obtain ⟨piece, rest, tail_eq, split_eq⟩ := split_cons (Ne.symm plain.1) text
      rw [induction plain.2] at tail_eq
      obtain ⟨rfl, rfl⟩ := List.cons.inj tail_eq
      exact split_eq

theorem intercalate_split (text : List Char) : ['/'].intercalate (split text) = text := by
  induction text with
  | nil => rfl
  | cons c text induction =>
      by_cases slash : c = '/'
      · subst slash
        obtain ⟨piece, rest, tail_eq⟩ := List.exists_cons_of_ne_nil (split_ne_nil text)
        rw [split_slash_cons, tail_eq, List.intercalate_cons_cons, ← tail_eq, induction]
        rfl
      · obtain ⟨piece, rest, tail_eq, split_eq⟩ := split_cons slash text
        rw [tail_eq] at induction
        rw [split_eq]
        cases rest with
        | nil => simpa using induction
        | cons next rest =>
            rw [List.intercalate_cons_cons] at induction ⊢
            rw [List.cons_append, List.cons_append, induction]

theorem intercalate_pieces (path : String) : String.intercalate "/" (pieces path) = path := by
  rw [← String.toList_inj, String.toList_intercalate, pieces, List.map_map]
  have texts : (String.toList ∘ String.ofList) = id := funext fun text => String.toList_ofList
  rw [texts, List.map_id]
  exact intercalate_split path.toList

/-! ## Names -/

/-- A piece that is a name. -/
structure IsName (piece : String) : Prop where
  moves : stays piece = false
  down : piece ≠ ".."
  whole : '/' ∉ piece.toList

/-- The pieces in front of a name in a directory are those of the directory, but for empty ones. -/
theorem pieces_join (directory : String) :
    ∃ front, front.filter (· != "") = (pieces directory).filter (· != "") ∧
      ∀ name, '/' ∉ name.toList → pieces (join directory name) = front ++ [name] := by
  have single {name : String} (plain : '/' ∉ name.toList) :
      (split name.toList).map String.ofList = [name] := by
    rw [split_of_notMem plain, List.map_singleton, String.ofList_toList]
  by_cases blank : directory = ""
  · subst blank
    refine ⟨[], rfl, fun name plain => ?_⟩
    have join_eq : join "" name = name := String.empty_append
    rw [join_eq]
    exact single plain
  · by_cases closed : directory.toList.getLast? = some '/'
    · obtain ⟨front, directory_eq⟩ := List.getLast?_eq_some_iff.mp closed
      refine ⟨(split front).map String.ofList, ?_, fun name plain => ?_⟩
      · rw [pieces, directory_eq, split_append, List.map_append, List.filter_append]
        exact (List.append_nil _).symm
      · rw [join, if_pos (by simp [closed]), pieces, String.toList_append, directory_eq,
          List.append_assoc, List.singleton_append, split_append, List.map_append, single plain]
    · refine ⟨pieces directory, rfl, fun name plain => ?_⟩
      have text_eq : (join directory name).toList = directory.toList ++ '/' :: name.toList := by
        rw [join, if_neg (by simp [blank, closed]), String.toList_append, String.toList_append,
          List.append_assoc]
        rfl
      rw [pieces, text_eq, split_append, List.map_append, single plain]
      rfl

theorem stemOf_append {stem extension : List Char} (named : stem ≠ [])
    (plain : '.' ∉ extension) : stemOf (stem ++ '.' :: extension) = stem := by
  have after : ((stem ++ '.' :: extension).reverse.takeWhile (· != '.')).reverse = extension := by
    rw [List.reverse_append, List.reverse_cons, List.append_assoc, List.takeWhile_append_of_pos]
    · simp
    · intro c member
      rw [List.mem_reverse] at member
      simpa using fun (point : c = '.') => plain (point ▸ member)
  have longer : extension.length + 1 < (stem ++ '.' :: extension).length := by
    have := List.length_pos_iff.mpr named
    simp
    omega
  rw [stemOf, extensionOf?, after, if_pos longer]
  simp

/-- The path of a name in a directory with another extension is that of the name with it. -/
theorem withExtension_join {directory stem old new name renamed : String} (named : stem ≠ "")
    (plain : '.' ∉ old.toList) (name_eq : name = stem ++ ("." ++ old))
    (renamed_eq : renamed = stem ++ ("." ++ new)) (is_name : IsName name)
    (stays_name : IsName renamed) :
    withExtension (join directory name) new = join directory renamed := by
  obtain ⟨front, -, pieces_eq⟩ := pieces_join directory
  have stem_eq : stemOf name.toList = stem.toList := by
    rw [name_eq, String.toList_append, String.toList_append]
    exact stemOf_append (by simpa using named) plain
  have dropped :
      (pieces (join directory name)).reverse.dropWhile stays = name :: front.reverse := by
    rw [pieces_eq name is_name.whole, List.reverse_append, List.reverse_singleton,
      List.singleton_append, List.dropWhile_cons_of_neg (by simp [is_name.moves])]
  rw [withExtension, dropped]
  split
  next none => contradiction
  next above up => exact absurd (List.cons.inj up).1 is_name.down
  next last above same =>
    obtain ⟨rfl, rfl⟩ := List.cons.inj same
    simp only [stem_eq, String.ofList_toList, List.reverse_cons, List.reverse_reverse,
      String.append_assoc, ← renamed_eq]
    rw [← pieces_eq renamed stays_name.whole, intercalate_pieces]

/-! ## Places -/

theorem isAbsolute_join {directory : String} (given : directory ≠ "") (name : String) :
    isAbsolute (join directory name) = isAbsolute directory := by
  have nonempty : directory.toList ≠ [] := by simpa using given
  obtain ⟨first, rest, text_eq⟩ := List.exists_cons_of_ne_nil nonempty
  rw [isAbsolute, isAbsolute, join]
  split <;> simp [text_eq]

theorem isValid_of_join {directory name : String} (given : directory ≠ "")
    (valid : isValid (join directory name)) : isValid directory := by
  obtain ⟨rest, join_eq⟩ : ∃ rest, join directory name = directory ++ rest := by
    rw [join]
    split
    · exact ⟨name, rfl⟩
    · exact ⟨"/" ++ name, String.append_assoc⟩
  simp only [join_eq, isValid, Bool.and_eq_true, Bool.not_eq_true', decide_eq_true_eq,
    List.contains_eq_mem, decide_eq_false_iff_not, String.toList_append, List.mem_append, not_or,
    String.utf8ByteSize_append] at valid ⊢
  exact ⟨⟨by simpa using given, by omega⟩, valid.2.1⟩

end Path

namespace Workspace

/-- Names that lead from the root to the directory of a path; without a path it is the working
directory. -/
def placeOf (workspace : Workspace) (directory : String) : Except PathFault (List String) :=
  if directory = "" then .ok workspace.here else workspace.locateDirectory directory

theorem exists_of_follows_append {root : FileTree} {place front names : List String}
    {name : String} (is_name : Path.IsName name)
    (follows : Follows root place (front ++ [name]) names) :
    ∃ directory, names = directory ++ [name] ∧ Follows root place front directory := by
  induction front generalizing place with
  | nil =>
      cases follows with
      | stay stays _ => exact absurd stays (by simp [is_name.moves])
      | up _ => exact absurd rfl is_name.down
      | down _ _ _ rest =>
          cases rest
          exact ⟨place.reverse, List.reverse_cons, .here⟩
  | cons piece front induction =>
      cases follows with
      | stay stays rest =>
          obtain ⟨directory, names_eq, reached⟩ := induction rest
          exact ⟨directory, names_eq, .stay stays reached⟩
      | up rest =>
          obtain ⟨directory, names_eq, reached⟩ := induction rest
          exact ⟨directory, names_eq, .up reached⟩
      | down moves down there rest =>
          obtain ⟨directory, names_eq, reached⟩ := induction rest
          exact ⟨directory, names_eq, .down moves down (fun _ => there (by simp)) reached⟩

/-- Empty pieces do not change where the other pieces lead. -/
theorem Follows.filter {root : FileTree} {place pieces names : List String}
    (follows : Follows root place pieces names) :
    Follows root place (pieces.filter (· != "")) names := by
  induction follows with
  | here => exact .here
  | @stay place tail names piece stays _ induction =>
      by_cases blank : piece = ""
      · subst blank
        exact induction
      · rw [List.filter_cons_of_pos (by simpa using blank)]
        exact .stay stays induction
  | up _ induction => exact .up induction
  | @down place tail names piece moves down there _ induction =>
      have solid : piece ≠ "" := by
        rintro rfl
        contradiction
      rw [List.filter_cons_of_pos (by simpa using solid)]
      exact .down moves down (fun more => there fun none => more (by rw [none]; rfl)) induction

/-- The path of a name in a directory leads to the name in the place of the directory. -/
theorem locate_join {workspace : Workspace} {directory name : String} {names : List String}
    (is_name : Path.IsName name)
    (leads : workspace.locate (Path.join directory name) = .ok names) :
    ∃ place, workspace.placeOf directory = .ok place ∧ names = place ++ [name] := by
  obtain ⟨front, front_eq, pieces_eq⟩ := Path.pieces_join directory
  rw [locate, pieces_eq name is_name.whole, locatePieces_eq_ok_iff] at leads
  obtain ⟨valid, follows⟩ := leads
  obtain ⟨place, names_eq, reached⟩ := exists_of_follows_append is_name follows
  refine ⟨place, ?_, names_eq⟩
  have filtered := reached.filter
  rw [front_eq] at filtered
  rw [placeOf]
  split
  next blank =>
    subst blank
    have relative : Path.isAbsolute (Path.join "" name) = false := by
      have join_eq : Path.join "" name = name := String.empty_append
      rw [join_eq, Path.isAbsolute, beq_eq_false_iff_ne]
      exact fun first => is_name.whole (List.mem_of_mem_head? first)
    rw [start, relative] at filtered
    have place_eq := follow_of_follows filtered
    rw [← place_eq]
    exact congrArg Except.ok (List.reverse_reverse _).symm
  next given =>
    rw [start, Path.isAbsolute_join given] at filtered
    exact locatePieces_eq_ok_iff.mpr ⟨Path.isValid_of_join given valid, filtered⟩

theorem placeOf_of_lookAt {before after : Workspace} {directory : String} {place : List String}
    (leads : before.placeOf directory = .ok place) (here : after.here = before.here)
    (kept : ∀ place, before.root.lookAt place = .directory →
      after.root.lookAt place = .directory) :
    after.placeOf directory = .ok place := by
  rw [placeOf] at leads ⊢
  rw [here]
  split
  next blank =>
    rw [if_pos blank] at leads
    exact leads
  next given =>
    rw [if_neg given] at leads
    exact locatePieces_of_lookAt leads here kept

end Workspace

end FlowCalibration
