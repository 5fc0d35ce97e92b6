import Netscribe.Hdl.Remark
/-!
# Lines of a text under construction

* `Lines.push`, `Lines.pushUnique` — adding a line, always or only when it is new.
* `Lines.heading` — the empty line and the remark block that open a section.
-/

namespace Netscribe.Lines

def push (lines : List String) (line : String) : List String :=
  lines ++ [line]

/-- Adds a line unless an equal one is there. -/
def pushUnique (lines : List String) (line : String) : List String :=
  if line ∈ lines then lines else lines ++ [line]

/-- What opens a section: an empty line and the title in a remark block. -/
def heading (d : Dialect) (title : String) : List String :=
  "" :: d.remark title indentation

end Netscribe.Lines
