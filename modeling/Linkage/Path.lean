import Linkage.Text

/-!
# Paths

A module under check has a path: its own name after the names of the modules around it. Paths share
what is common to them, and their text is put together only where it is shown.
-/

set_option autoImplicit false

namespace Linkage

inductive Path where
  | root (name : Name)
  | nested (outer : Path) (name : Name)
deriving DecidableEq, Repr

namespace Path

def divider : Text := "/"

def write : Path → Text → Text
  | .root name, rest => name ++ rest
  | .nested outer name, rest => outer.write (divider ++ (name ++ rest))

/-- The names from the outside in, with the divider between them. -/
def text (path : Path) : Text := path.write []

theorem write_eq (path : Path) (rest : Text) : path.write rest = path.text ++ rest := by
  induction path generalizing rest with
  | root name => rw [text, write, write, List.append_nil]
  | nested outer name ih =>
      rw [text, write, write, ih, ih (divider ++ (name ++ []))]
      simp only [List.append_assoc, List.nil_append]

@[simp]
theorem text_root (name : Name) : (root name).text = name := List.append_nil name

@[simp]
theorem text_nested (outer : Path) (name : Name) :
    (nested outer name).text = outer.text ++ (divider ++ name) := by
  rw [text, write, write_eq, List.append_nil]

end Path

end Linkage
