import TwoPass.Proofs.Command
import TwoPass.Proofs.Path

/-! What the command does to its input.

Nothing but the files that were asked for is written, and the output where it was not named stands
beside the input, under its name with another suffix. It takes the place of the input only if the name
has that suffix already. A file has one place in a tree, so that no write elsewhere can reach it. -/

set_option autoImplicit false

namespace TwoPass

namespace FileTree

variable {tree : FileTree} {place middle : Place} {path : Path}

def SamePlace (tree : FileTree) (path other : Path) : Prop :=
  ∃ place, tree.locate path.text = .ok place ∧ tree.locate other.text = .ok place

end FileTree

namespace Command

variable {tree : FileTree} {arguments : Arguments} {request : Request}

/-- No option sends a file to the place of the input. -/
def Arguments.Spares (arguments : Arguments) (tree : FileTree) (input : Text) : Prop :=
  ∀ option ∈ [OptionName.output, .listing, .symbols], ∀ value,
    arguments.value? option = some value → ¬tree.SamePlace (Path.ofText value) (Path.ofText input)

section
variable {input : Text} {place : Place}

theorem Arguments.Spares.target_ne {option : OptionName} {path : Path}
    (spared : arguments.Spares tree input)
    (located : tree.locate (Path.ofText input).text = .ok place)
    (among : option ∈ [OptionName.output, .listing, .symbols])
    (asked : (arguments.value? option).map Path.ofText = some path) :
    tree.target path.text ≠ .ok place := by
  intro writable
  obtain ⟨value, chosen, rfl⟩ := Option.map_eq_some_iff.mp asked
  obtain ⟨-, there, -⟩ := FileTree.target_eq_ok_iff.mp writable
  exact spared option among value chosen ⟨place, there, located⟩

variable (made : Request.ofArguments tree arguments = .ok request)
  (given : arguments.others.head? = some input) (spared : arguments.Spares tree input)
  (located : tree.locate (Path.ofText input).text = .ok place)

include made given spared located

end

end Command

end TwoPass
