import FlowCalibration.Proofs.Files.Changes

/-!
# Where paths lead

Following a path is a relation between the place where it starts, its pieces, and the names to which
it leads.  It asks for nothing but directories on the way, so a path leads to the same place as long
as no directory is taken away, and a written file is found under the path under which it was
written.
-/

namespace FlowCalibration

namespace Workspace

/-- From a place, pieces lead to names; the names of the place stand last first. -/
inductive Follows (root : FileTree) : List String → List String → List String → Prop
  | here {place : List String} : Follows root place [] place.reverse
  | stay {place tail names : List String} {piece : String} :
      Path.stays piece → Follows root place tail names → Follows root place (piece :: tail) names
  | up {place tail names : List String} :
      Follows root place.tail tail names → Follows root place (".." :: tail) names
  /-- There is a directory below, unless nothing follows. -/
  | down {place tail names : List String} {piece : String} :
      Path.stays piece = false → piece ≠ ".." →
      (tail ≠ [] → root.lookAt (piece :: place).reverse = .directory) →
      Follows root (piece :: place) tail names → Follows root place (piece :: tail) names

variable {root other : FileTree} {place pieces names : List String}

theorem follows_of_follow (leads : follow root place pieces = .ok names) :
    Follows root place pieces names := by
  induction pieces generalizing place with
  | nil =>
      obtain rfl := Except.ok.inj leads
      exact .here
  | cons piece pieces induction =>
      rw [follow] at leads
      split at leads
      next stays => exact .stay stays (induction leads)
      next moves =>
        have moves := eq_false_of_ne_true moves
        split at leads
        next up => exact up ▸ .up (induction leads)
        next down =>
          split at leads
          next last =>
            subst last
            obtain rfl := Except.ok.inj leads
            exact .down moves down (fun more => absurd rfl more) .here
          next =>
            split at leads
            next there => exact .down moves down (fun _ => there) (induction leads)
            next => contradiction
            next => contradiction

theorem follow_of_follows (follows : Follows root place pieces names) :
    follow root place pieces = .ok names := by
  induction follows with
  | here => rfl
  | stay stays _ induction => rw [follow, if_pos stays, induction]
  | up _ induction =>
      rw [follow, if_neg (by decide), if_pos rfl, induction]
  | @down place tail names piece moves down there _ induction =>
      rw [follow, if_neg (by simp [moves]), if_neg down]
      split
      next last =>
        subst last
        exact induction
      next more => rw [there more, induction]

theorem follow_eq_ok_iff : follow root place pieces = .ok names ↔ Follows root place pieces names :=
  ⟨follows_of_follow, follow_of_follows⟩

/-- Pieces lead to the same place where all directories are still there. -/
theorem Follows.of_lookAt (follows : Follows root place pieces names)
    (kept : ∀ place, root.lookAt place = .directory → other.lookAt place = .directory) :
    Follows other place pieces names := by
  induction follows with
  | here => exact .here
  | stay stays _ induction => exact .stay stays induction
  | up _ induction => exact .up induction
  | down moves down there _ induction =>
      exact .down moves down (fun more => kept _ (there more)) induction

/-- Where the pieces of a path start. -/
def start (workspace : Workspace) (path : String) : List String :=
  if Path.isAbsolute path then [] else workspace.here.reverse

theorem locatePieces_eq_ok_iff {workspace : Workspace} {path : String} :
    workspace.locatePieces path pieces = .ok names ↔
      Path.isValid path ∧ Follows workspace.root (workspace.start path) pieces names := by
  rw [locatePieces]
  split
  next valid => simp [valid, start, follow_eq_ok_iff]
  next invalid => simp [invalid]

/-- Paths lead to the same places where all directories are still there. -/
theorem locatePieces_of_lookAt {before after : Workspace} {path : String}
    (leads : before.locatePieces path pieces = .ok names) (here : after.here = before.here)
    (kept : ∀ place, before.root.lookAt place = .directory →
      after.root.lookAt place = .directory) :
    after.locatePieces path pieces = .ok names := by
  rw [locatePieces_eq_ok_iff, start] at leads ⊢
  rw [here]
  exact ⟨leads.1, leads.2.of_lookAt kept⟩

theorem look_write? {workspace saved : Workspace} {path : String} {content : List UInt8}
    (written : workspace.write? path content = some saved) : saved.look path = .file content := by
  rw [write?] at written
  split at written
  next names leads =>
    obtain ⟨root, root_written, rfl⟩ := Option.map_eq_some_iff.mp written
    have same_place : (workspace.withRoot root).locate path = .ok names :=
      locatePieces_of_lookAt leads rfl fun _ there => FileTree.lookAt_writeAt? root_written there
    rw [look, same_place]
    exact FileTree.lookAt_written root_written
  next => contradiction

end Workspace

end FlowCalibration
