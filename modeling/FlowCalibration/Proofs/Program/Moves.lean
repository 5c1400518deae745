import FlowCalibration.Program.Machine
import Mathlib.Data.List.Induction

/-!
# Moves

What a line with repeated letters does to the machine depends on the last word of each letter only,
and every axis has its own letter.  So a move is a leg: a target for some of the axes and a length
of filament.
-/

namespace FlowCalibration

namespace ProgramLine

/-- Value of the last of some words with a letter. -/
def lastValue? (words : List Word) (letter : Char) : Option Float :=
  (words.reverse.find? (·.letter == letter)).map Word.value

theorem lastValue?_append (words : List Word) (word : Word) (letter : Char) :
    lastValue? (words ++ [word]) letter =
      if word.letter = letter then some word.value else lastValue? words letter := by
  simp only [lastValue?, List.reverse_append, List.reverse_singleton, List.singleton_append,
    List.find?_cons]
  split <;> simp_all

theorem mem_of_lastValue? {words : List Word} {letter : Char} {value : Float}
    (last : lastValue? words letter = some value) : ∃ word ∈ words, word.value = value := by
  obtain ⟨word, found, rfl⟩ := Option.map_eq_some_iff.mp last
  exact ⟨word, List.mem_reverse.mp (List.mem_of_find?_eq_some found), rfl⟩

end ProgramLine

/-- A move as it is meant: targets of some of the axes, and a length of filament. -/
structure Leg where
  x : Option Float := none
  y : Option Float := none
  z : Option Float := none
  /-- Filament that is pushed, negative for a retraction. -/
  push : Option Float := none
  rapid : Bool := true

/-- The leg that a line asks for. -/
def Leg.ofLine (line : ProgramLine) (rapid : Bool) : Leg where
  x := line.value? 'X'
  y := line.value? 'Y'
  z := line.value? 'Z'
  push := line.value? 'E'
  rapid := rapid

namespace MachineState

open ProgramLine (lastValue?)

/-- Where the coordinate of a letter is aimed at by some words. -/
def aimed (words : List Word) (letter : Char) (place : Float → Float) (current : Float) : Float :=
  ((lastValue? words letter).map fun value => finiteOr (place value) current).getD current

theorem aimed_append (words : List Word) (word : Word) (letter : Char) (place : Float → Float)
    (current : Float) :
    aimed (words ++ [word]) letter place current =
      if word.letter = letter then finiteOr (place word.value) current
      else aimed words letter place current := by
  rw [aimed, ProgramLine.lastValue?_append]
  split <;> rfl

/-- Every axis is aimed by the last word with its letter, from the state before the move. -/
theorem foldl_aimWord (state : MachineState) (words : List Word) :
    words.foldl state.aimWord state =
      { state with
        x := aimed words 'X' (state.axisTarget state.x) state.x
        y := aimed words 'Y' (state.axisTarget state.y) state.y
        z := aimed words 'Z' (state.axisTarget state.z) state.z
        e := aimed words 'E' state.extruderTarget state.e } := by
  induction words using List.reverseRecOn with
  | nil => rfl
  | append_singleton words word induction =>
      rw [List.foldl_append, induction, List.foldl_cons, List.foldl_nil]
      simp only [aimed_append]
      obtain ⟨letter, value⟩ := word
      by_cases x : letter = 'X'
      · subst x; rfl
      by_cases y : letter = 'Y'
      · subst y; rfl
      by_cases z : letter = 'Z'
      · subst z; rfl
      by_cases e : letter = 'E'
      · subst e; rfl
      simp [aimWord, x, y, z, e]

theorem foldl_setWord (state : MachineState) (words : List Word) :
    words.foldl setWord state =
      { state with
        x := (lastValue? words 'X').getD state.x
        y := (lastValue? words 'Y').getD state.y
        z := (lastValue? words 'Z').getD state.z
        e := (lastValue? words 'E').getD state.e } := by
  induction words using List.reverseRecOn with
  | nil => rfl
  | append_singleton words word induction =>
      rw [List.foldl_append, induction, List.foldl_cons, List.foldl_nil]
      simp only [ProgramLine.lastValue?_append]
      obtain ⟨letter, value⟩ := word
      by_cases x : letter = 'X'
      · subst x; rfl
      by_cases y : letter = 'Y'
      · subst y; rfl
      by_cases z : letter = 'Z'
      · subst z; rfl
      by_cases e : letter = 'E'
      · subst e; rfl
      simp [setWord, x, y, z, e]

/-- State at the end of a leg; a length that cannot be added leaves the extruder where it is. -/
def follow (state : MachineState) (leg : Leg) : MachineState :=
  { state with
    x := leg.x.getD state.x
    y := leg.y.getD state.y
    z := leg.z.getD state.z
    e := (leg.push.map fun length => finiteOr (state.e + length) state.e).getD state.e }

/-- The mode in which sites are printed: axis values are positions, extruder values lengths. -/
def Working (state : MachineState) : Prop :=
  state.absolutePositioning = true ∧ state.absoluteExtrusion = false

theorem Working.follow {state : MachineState} (working : state.Working) (leg : Leg) :
    (state.follow leg).Working :=
  working

theorem aimed_of_isFinite {words : List Word} (finite : ∀ word ∈ words, word.value.isFinite = true)
    (letter : Char) (current : Float) :
    aimed words letter (fun value => value) current = (lastValue? words letter).getD current := by
  cases last : lastValue? words letter with
  | none => simp [aimed, last]
  | some value =>
      obtain ⟨word, member, rfl⟩ := ProgramLine.mem_of_lastValue? last
      simp [aimed, last, finiteOr, finite word member]

/-- A line that moves makes the leg that it asks for; the mode of the extruder matters only where
there is filament to push. -/
theorem step_linearMove {state : MachineState} (absolute : state.absolutePositioning = true)
    {line : ProgramLine} (relative : state.absoluteExtrusion = false ∨ line.value? 'E' = none)
    {rapid : Bool} (command : line.command = .linearMove rapid)
    (finite : ∀ word ∈ line.words, word.value.isFinite = true) :
    state.step line =
      (state.follow (.ofLine line rapid),
        some (.motion (state.motionTo (state.follow (.ofLine line rapid)) rapid))) := by
  have place (current : Float) : state.axisTarget current = fun value => value := by
    funext value
    simp [axisTarget, absolute]
  have push : aimed line.words 'E' state.extruderTarget state.e =
      ((line.value? 'E').map fun length => finiteOr (state.e + length) state.e).getD state.e := by
    rcases relative with relative | unpushed
    · have target_eq : state.extruderTarget = fun length => state.e + length := by
        funext length
        simp [extruderTarget, relative]
      rw [target_eq]
      rfl
    · have last : lastValue? line.words 'E' = none := unpushed
      rw [aimed, last, unpushed]
      rfl
  have target_eq : state.target line = state.follow (.ofLine line rapid) := by
    rw [target, foldl_aimWord]
    simp only [place, push, aimed_of_isFinite finite]
    rfl
  simp only [step, command, target_eq]

end MachineState

end FlowCalibration
