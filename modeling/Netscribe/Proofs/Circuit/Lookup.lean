import Netscribe.Proofs.Circuit.Generable

/-!
# Which terminal carries a pin

A pin's port is called by the identifier of the pin's label, and the instance is asked for a terminal
under that name, where the labels of the terminals are made into identifiers once more.  An identifier
is its own identifier, so this is no other question than the one about the label itself: the terminal
is the first one, in the direction of the pin, whose label gives the same identifier.

* `Component.places` — the terminals that carry a label in a direction, by position.
* `Component.terminalIndex?_ofLabel` — a label and its identifier find the same terminal.
* `Component.terminalIndex?_eq_some_iff`, `Component.terminalIndex?_eq_none_iff` — which terminal is
  found, and when there is none.
* **`Component.terminalIndex?_identifier`** — what an identifier is, and what is found by it.
-/

namespace Netscribe

namespace Identifier

lemma ofLabel_eq_empty_iff {label : String} : ofLabel label = "" ↔ label = "" := by
  rw [← String.toList_eq_nil_iff, ← String.toList_eq_nil_iff, toList_ofLabel]
  cases label.toList with
  | nil => simp
  | cons c cs => simp [ofChars]

/-- An identifier starts with no digit, whatever the label starts with. -/
lemma isDigit_head?_ofLabel (label : String) :
    ∀ c ∈ (ofLabel label).toList.head?, c.isDigit = false := by
  rw [toList_ofLabel]
  exact isDigit_head?_ofChars _

lemma isAlphanum_or_eq_of_mem {label : String} :
    ∀ c ∈ (ofLabel label).toList, c.isAlphanum = true ∨ c = '_' := by
  intro c hc
  simpa [isWordChar] using IsWord.ofLabel label c hc

end Identifier

namespace Component

variable {c : Component} {direction : Direction} {label : String} {i : ℕ}

/-! ## Terminals by label -/

/-- **Where an instance carries a label**: the positions of the terminals in a direction whose labels
give the same identifier. -/
def places (c : Component) (direction : Direction) (label : String) : Set ℕ :=
  {i | ∃ t, c.terminal? i = some t ∧ t.direction = direction
    ∧ ∃ l, t.label = some l ∧ Identifier.ofLabel l = Identifier.ofLabel label}

/-- **A label and its identifier find the same terminal.** -/
lemma terminalIndex?_ofLabel (c : Component) (label : String) (direction : Direction) :
    c.terminalIndex? (Identifier.ofLabel label) direction = c.terminalIndex? label direction := by
  rw [terminalIndex?, terminalIndex?, Identifier.ofLabel_ofLabel]

/-- **The terminal that is found** is the first one that carries the label. -/
lemma terminalIndex?_eq_some_iff :
    c.terminalIndex? label direction = some i ↔ IsLeast (c.places direction label) i := by
  rw [terminalIndex?, findIdx?_eq_some_iff_isLeast]
  simp [places, terminal?, Option.any_eq_true]

lemma terminalIndex?_eq_none_iff :
    c.terminalIndex? label direction = none ↔ ¬ c.Carries direction label := by
  rw [← isSome_terminalIndex?, terminalIndex?_ofLabel, Bool.not_eq_true, Option.isSome_eq_false_iff,
    Option.isNone_iff_eq_none]

/-! ## Pins -/

/-- A pin is bound through the first terminal that carries its label. -/
lemma pinBinding_eq_ok_iff_isLeast {nl : Netlist} {pin : Component} {port : String} {width : ℕ}
    (hport : pin.pinPort? = some (port, width)) {bound : String × Binding} :
    (nl.pinBinding c direction port).outcome = .ok bound ↔
      ∃ i binding, IsLeast (c.places direction pin.label) i
        ∧ (nl.terminalBinding port c i).outcome = .ok binding ∧ (port, binding) = bound := by
  obtain ⟨t, -, -, -, hname⟩ := pinPort?_eq_some_iff.1 hport
  obtain ⟨rfl, -⟩ := Prod.mk.inj hname
  simp only [Netlist.pinBinding_eq_ok_iff, terminalIndex?_ofLabel, terminalIndex?_eq_some_iff]

/-- **An identifier is its own identifier, and lookups go by identifiers.**  It is empty for the empty
label alone, starts with no digit, and has ASCII letters, digits and underscores only.  So a label finds
what its identifier does: the first terminal of the direction whose label gives the same identifier, and
nothing exactly if there is none.  A pin's port is bound through this terminal, though it is asked for
under the port's name. -/
theorem terminalIndex?_identifier (nl : Netlist) (c : Component) (direction : Direction)
    (label : String) :
    (Identifier.ofLabel (Identifier.ofLabel label) = Identifier.ofLabel label
        ∧ (Identifier.ofLabel label = "" ↔ label = "")
        ∧ (∀ x ∈ (Identifier.ofLabel label).toList.head?, x.isDigit = false)
        ∧ ∀ x ∈ (Identifier.ofLabel label).toList, x.isAlphanum = true ∨ x = '_')
      ∧ c.terminalIndex? (Identifier.ofLabel label) direction = c.terminalIndex? label direction
      ∧ (∀ i, c.terminalIndex? label direction = some i ↔ IsLeast (c.places direction label) i)
      ∧ (c.terminalIndex? label direction = none ↔ ¬ c.Carries direction label)
      ∧ ∀ (pin : Component) (port : String) (width : ℕ), pin.pinPort? = some (port, width) →
        ∀ bound, (nl.pinBinding c direction port).outcome = .ok bound ↔
          ∃ i binding, IsLeast (c.places direction pin.label) i
            ∧ (nl.terminalBinding port c i).outcome = .ok binding ∧ (port, binding) = bound := by
  refine ⟨⟨Identifier.ofLabel_ofLabel label, Identifier.ofLabel_eq_empty_iff, ?_, ?_⟩, ?_⟩
  · exact Identifier.isDigit_head?_ofLabel label
  · exact Identifier.isAlphanum_or_eq_of_mem
  · exact ⟨c.terminalIndex?_ofLabel label direction, fun i => terminalIndex?_eq_some_iff,
      terminalIndex?_eq_none_iff, fun pin port width hport bound =>
        pinBinding_eq_ok_iff_isLeast hport⟩

/-- A pin whose label starts with a digit.  One terminal has the right label in the wrong direction, and
of the others the first one found is labelled otherwise, with the same identifier. -/
theorem terminalIndex?_identifier_digit :
    let c : Component :=
      { terminals := [
          .unconnected .output 1 (some "7 seg"),
          .unconnected .input 1,
          .unconnected .input 1 (some "L_7-seg"),
          .unconnected .input 1 (some "7 seg")] }
    let pin : Component := { label := "7 seg", terminals := [.unconnected .output 1] }
    pin.pinPort? = some ("L_7_seg", 1)
      ∧ c.terminalIndex? "7 seg" .input = some 2
      ∧ c.terminalIndex? "L_7_seg" .input = some 2
      ∧ IsLeast (c.places .input "7 seg") 2
      ∧ ∃ bound, (({} : Netlist).pinBinding c .input "L_7_seg").outcome = .ok bound
        ∧ ∃ i binding, IsLeast (c.places .input "7 seg") i
          ∧ (({} : Netlist).terminalBinding "L_7_seg" c i).outcome = .ok binding
          ∧ ("L_7_seg", binding) = bound := by
  intro c pin
  have hport : pin.pinPort? = some ("L_7_seg", 1) := by decide
  obtain ⟨-, hsame, hfound, -, hbound⟩ := terminalIndex?_identifier {} c .input "7 seg"
  have hindex : c.terminalIndex? "7 seg" .input = some 2 := by decide
  exact ⟨hport, hindex, hsame.trans hindex, (hfound 2).1 hindex, _, rfl,
    (hbound pin _ _ hport _).1 rfl⟩

end Component

end Netscribe
