import FlowCalibration.Files.Workspace

/-!
# What changes leave as it was

Writing a file changes what is found where the file is, and nothing else.  Making a directory, with
those above it, puts directories where there was nothing, and changes nothing else.  Either way all
directories stay, so every path leads where it led before.
-/

namespace FlowCalibration

namespace FileTree

variable {tree altered : FileTree} {names place : List String}

@[simp]
theorem lookAt_file_cons (content : List UInt8) (name : String) (names : List String) :
    (file content).lookAt (name :: names) = .absent :=
  rfl

theorem lookAt_directory_cons (members : List (String × FileTree)) (name : String)
    (names : List String) :
    (directory members).lookAt (name :: names) =
      match KeyTable.find? members name with
      | some member => member.lookAt names
      | none => .absent := by
  rw [lookAt, member?]
  cases KeyTable.find? members name <;> rfl

theorem lookAt_insert (members : List (String × FileTree)) (key name : String)
    (member : FileTree) (names : List String) :
    (directory (KeyTable.insert members key member)).lookAt (name :: names) =
      if name = key then member.lookAt names else (directory members).lookAt (name :: names) := by
  rw [lookAt_directory_cons, KeyTable.find?_insert, lookAt_directory_cons]
  by_cases same : name = key
  · simp only [if_pos same]
  · simp only [if_neg same]

/-- Where a tree was altered it holds what the change makes of what it held there. -/
theorem member?_alterAt? {change : Option FileTree → Option FileTree}
    (alters : tree.alterAt? change names = some altered) :
    ∃ member, change (tree.member? names) = some member ∧
      altered.member? names = some member := by
  induction names generalizing tree altered with
  | nil => exact ⟨altered, alters, rfl⟩
  | cons name names induction =>
      cases tree with
      | file content => contradiction
      | directory members =>
          rw [alterAt?] at alters
          rw [member?]
          cases held : KeyTable.find? members name with
          | some inner =>
              simp only [held] at alters
              obtain ⟨member, inner_alters, rfl⟩ := Option.map_eq_some_iff.mp alters
              obtain ⟨result, changed, found⟩ := induction inner_alters
              refine ⟨result, changed, ?_⟩
              rw [member?, KeyTable.find?_insert, if_pos rfl]
              exact found
          | none =>
              simp only [held] at alters
              obtain ⟨⟨rfl, _⟩, made⟩ := Option.ite_none_right_eq_some.mp alters
              obtain ⟨member, changed, rfl⟩ := Option.map_eq_some_iff.mp made
              refine ⟨member, changed, ?_⟩
              rw [member?, KeyTable.find?_insert, if_pos rfl]
              rfl

/-- A change that keeps what is below the member that it changes. -/
def KeepsBelow (change : Option FileTree → Option FileTree) : Prop :=
  ∀ member result, change member = some result → ∀ name names, result.lookAt (name :: names) =
    match member with
    | some member => member.lookAt (name :: names)
    | none => .absent

theorem keepsBelow_overwrite? (content : List UInt8) : KeepsBelow (overwrite? content) := by
  intro member result changed name names
  match member with
  | none | some (file _) =>
      obtain rfl := Option.some.inj changed
      rfl
  | some (directory _) => contradiction

theorem keepsBelow_openDirectory? : KeepsBelow openDirectory? := by
  intro member result changed name names
  match member with
  | none | some (directory _) =>
      obtain rfl := Option.some.inj changed
      rfl
  | some (file _) => contradiction

/-- A change shows only where it is made. -/
theorem lookAt_alterAt? {change : Option FileTree → Option FileTree} (keeps : KeepsBelow change)
    (alters : tree.alterAt? change names = some altered) (elsewhere : place ≠ names) :
    altered.lookAt place = tree.lookAt place := by
  induction names generalizing tree altered place with
  | nil =>
      cases place with
      | nil => contradiction
      | cons name place => exact keeps (some tree) altered alters name place
  | cons name names induction =>
      cases tree with
      | file content => contradiction
      | directory members =>
          rw [alterAt?] at alters
          split at alters
          next member held =>
            obtain ⟨inner, inner_alters, rfl⟩ := Option.map_eq_some_iff.mp alters
            cases place with
            | nil => rfl
            | cons first place =>
                rw [lookAt_insert]
                split
                next same =>
                  subst same
                  rw [lookAt_directory_cons, held]
                  exact induction inner_alters fun equal => elsewhere (congrArg _ equal)
                next => rfl
          next held =>
            obtain ⟨⟨rfl, _⟩, made⟩ := Option.ite_none_right_eq_some.mp alters
            obtain ⟨inner, changed, rfl⟩ := Option.map_eq_some_iff.mp made
            cases place with
            | nil => rfl
            | cons first place =>
                rw [lookAt_insert]
                split
                next same =>
                  subst same
                  rw [lookAt_directory_cons, held]
                  cases place with
                  | nil => contradiction
                  | cons second place => exact keeps none inner changed second place
                next => rfl

theorem lookAt_written {content : List UInt8}
    (written : tree.writeAt? content names = some altered) :
    altered.lookAt names = .file content := by
  obtain ⟨member, overwritten, found⟩ := member?_alterAt? written
  unfold overwrite? at overwritten
  split at overwritten
  · contradiction
  · obtain rfl := Option.some.inj overwritten
    rw [lookAt, found]

theorem lookAt_writeAt?_eq {content : List UInt8}
    (written : tree.writeAt? content names = some altered) (place : List String) :
    altered.lookAt place = if place = names then .file content else tree.lookAt place := by
  split
  next same => exact same ▸ lookAt_written written
  next elsewhere => exact lookAt_alterAt? (keepsBelow_overwrite? content) written elsewhere

theorem lookAt_writeAt? {content : List UInt8}
    (written : tree.writeAt? content names = some altered) {place : List String}
    (there : tree.lookAt place = .directory) : altered.lookAt place = .directory := by
  have elsewhere : place ≠ names := by
    intro same
    subst same
    obtain ⟨member, overwritten, _⟩ := member?_alterAt? written
    rw [lookAt] at there
    split at there
    · contradiction
    next found =>
      rw [found] at overwritten
      contradiction
    · contradiction
  rw [lookAt_writeAt?_eq written, if_neg elsewhere, there]

theorem lookAt_makeDirectoryAt? (made : tree.makeDirectoryAt? names = some altered)
    (place : List String) :
    altered.lookAt place = tree.lookAt place ∨
      tree.lookAt place = .absent ∧ altered.lookAt place = .directory := by
  by_cases elsewhere : place = names
  · subst elsewhere
    obtain ⟨member, opened, found⟩ := member?_alterAt? made
    rw [lookAt, lookAt, found]
    match held : tree.member? place with
    | none =>
        rw [held] at opened
        obtain rfl := Option.some.inj opened
        exact .inr ⟨rfl, rfl⟩
    | some (directory members) =>
        rw [held] at opened
        obtain rfl := Option.some.inj opened
        exact .inl rfl
    | some (file content) =>
        rw [held] at opened
        contradiction
  · exact .inl (lookAt_alterAt? keepsBelow_openDirectory? made elsewhere)

end FileTree

namespace Workspace

/-- Files and directories stay, and all that is new are directories. -/
structure Opens (before after : Workspace) : Prop where
  here : after.here = before.here
  lookAt : ∀ place, after.root.lookAt place = before.root.lookAt place ∨
    before.root.lookAt place = .absent ∧ after.root.lookAt place = .directory

theorem Opens.refl (workspace : Workspace) : Opens workspace workspace :=
  ⟨rfl, fun _ => .inl rfl⟩

theorem Opens.trans {first second third : Workspace} (opens : Opens first second)
    (later : Opens second third) : Opens first third := by
  refine ⟨later.here.trans opens.here, fun place => ?_⟩
  rcases opens.lookAt place with same | ⟨absent, directory⟩
  · rw [← same]
    exact later.lookAt place
  · rcases later.lookAt place with same | ⟨impossible, _⟩
    · exact .inr ⟨absent, same.trans directory⟩
    · rw [directory] at impossible
      contradiction

/-- The files after directories were made are those before. -/
theorem Opens.lookAt_eq_file_iff {before after : Workspace} (opens : Opens before after)
    {place : List String} {content : List UInt8} :
    after.root.lookAt place = .file content ↔ before.root.lookAt place = .file content := by
  rcases opens.lookAt place with same | ⟨absent, directory⟩
  · rw [same]
  · rw [absent, directory]
    simp

theorem Opens.directories {before after : Workspace} (opens : Opens before after)
    {place : List String} (there : before.root.lookAt place = .directory) :
    after.root.lookAt place = .directory := by
  rcases opens.lookAt place with same | ⟨_, directory⟩
  · rw [same, there]
  · exact directory

theorem opens_makeOne {workspace opened : Workspace} {path : String}
    (made : workspace.makeOne path = .ok opened) : Opens workspace opened := by
  rw [makeOne] at made
  split at made
  next => contradiction
  next names _ =>
    split at made
    next root root_made =>
      obtain rfl := Except.ok.inj made
      exact ⟨rfl, FileTree.lookAt_makeDirectoryAt? root_made⟩
    next => contradiction

theorem opens_toOption {workspace opened : Workspace} {path : String}
    (made : (workspace.makeOne path).toOption = some opened) : Opens workspace opened := by
  cases one : workspace.makeOne path with
  | error fault =>
      rw [one] at made
      contradiction
  | ok result =>
      rw [one] at made
      obtain rfl := Option.some.inj made
      exact opens_makeOne one

theorem opens_makeBelow? {workspace opened : Workspace} {path : String} {above : List String}
    (made : workspace.makeBelow? path above = some opened) : Opens workspace opened := by
  induction above generalizing path opened with
  | nil => exact opens_toOption made
  | cons parent above induction =>
      rw [makeBelow?] at made
      split at made
      next result one =>
        obtain rfl := Option.some.inj made
        exact opens_makeOne one
      next => contradiction
      next =>
        split at made
        next middle below => exact (induction below).trans (opens_toOption made)
        next => contradiction

/-- Making a directory changes nothing but that there are more of them. -/
theorem opens_makeDirectory? {workspace opened : Workspace} {path : String}
    (made : workspace.makeDirectory? path = some opened) : Opens workspace opened := by
  rw [makeDirectory?] at made
  split at made
  · obtain rfl := Option.some.inj made
    exact .refl workspace
  · exact opens_makeBelow? made

end Workspace

end FlowCalibration
