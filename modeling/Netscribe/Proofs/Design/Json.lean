import Netscribe.Design.Json
import Netscribe.Proofs.Netlist.Json

/-!
# Designs are read back

A design is read back from its text, and what is loaded is that design if it is accepted.

* `Design.roundTrips` — the exchange format of a design.
* `Design.load_render_eq` — what is loaded from the text of any design.
* **`Design.load_render`** — an accepted design is loaded from its text.
-/

namespace Netscribe

open Json

lemma Circuit.roundTrips : RoundTrips toJson ofJson? where
  plain c := .record (by simp [roundTrips_text.plain, Netlist.roundTrips.plain])
  read_encode c := by
    rw [toJson, ofJson?, fields?_record]
    · simp [List.lookup_cons, roundTrips_text.read_encode, Netlist.roundTrips.read_encode]
    · exact .refl _
    · decide

namespace Design

/-- **A design is read back** from the value it is written as. -/
theorem roundTrips : RoundTrips toJson ofJson? where
  plain d := .record (by simp [Circuit.roundTrips.list.plain, roundTrips_word32.plain])
  read_encode d := by
    rw [toJson, ofJson?, fields?_record]
    · simp [List.lookup_cons, Circuit.roundTrips.list.read_encode, roundTrips_word32.read_encode]
    · exact .refl _
    · decide

/-- **What is loaded from the text of a design** is the design, unless it is refused. -/
theorem load_render_eq (d : Design) :
    load d.render = (d.validate.mapError LoadError.refused).map fun _ => d := by
  have hread : (Json.parse? d.render).bind ofJson? = some d := by
    rw [render, parse?_render (roundTrips.plain d), Option.bind_some, roundTrips.read_encode]
  rw [load, hread]
  dsimp only
  cases d.validate <;> rfl

/-- **An accepted design is loaded from its text.** -/
theorem load_render {d : Design} (haccepted : d.validate = .ok ()) : load d.render = .ok d := by
  rw [load_render_eq, haccepted]
  rfl

/-- A circuit with a net inside another one, labels with escapes, attributes of every kind, ranges of
bubbles and a clock without a tree, and an instance of it. -/
def everyField : Design where
  circuits := #[
    { name := "leaf \"\\\x08\x0c\n\r\t\x1f/é😀"
      netlist := {
        nets := #[
          { width := 4, sources := [[⟨0, 3⟩], []], sinks := [[]] },
          { width := 2, parent := some ⟨0, 2⟩, forcedRoot := true }]
        components := [
          { label := "g"
            kind := .primitive "AND" (.ofList [("least", .int Int64.minValue), ("is", .bool true),
              ("", .text "null")])
            terminals := [⟨.output, some "Q", [some ⟨0, 0⟩, none]⟩]
            bubbles := { input := some ⟨0, 4294967295⟩, inout := some ⟨2, 1⟩ } }]
        inputs := [{ terminals := [⟨.inout, none, []⟩] }]
        clockSources := [{ component := {} }, { component := {}, tree := some 0 }]
        clockTrees := 1
        requiresGlobalClock := true } },
    { name := "main"
      netlist := {
        instances := [{ label := "u", kind := .instance 0 true }]
        outputBubbles := 7 } }]
  top := 1

/-- A design that uses every field is loaded from its text. -/
theorem load_render_everyField :
    everyField.validate = .ok () ∧ load everyField.render = .ok everyField := by
  have haccepted : everyField.validate = .ok () := by decide
  exact ⟨haccepted, load_render haccepted⟩

end Design

end Netscribe
