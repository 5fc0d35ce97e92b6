import Netscribe.Design.Validation
import Netscribe.Proofs.Circuit.Shared
import Netscribe.Proofs.Generation.Offers

/-!
# Names that a module declares

A module declares its ports and its signals.  All of these have names that are made up, except for
the ports of pins, whose names come from the labels of the pins.  Names that are made up are told
apart by how they begin and by their numbers.  Labels are taken as they are: two pins may have one
identifier, and a label may be a name that is made up as well.

* `Netlist.declared` — the declared names, with `Netlist.perm_declared`.
* `Netlist.madeUp` — the ones that do not come from labels, with `Netlist.madeUp_nodup`.
* `Netlist.declared_nodup_iff` — when the declared names are different.
* **`Context.offered_declares`** — the names that are declared in an offered module.
-/

namespace Netscribe

namespace Netlist

variable {nl : Netlist}

/-- **The declared names that do not come from labels**: those of what is shared, and of signals. -/
def madeUp (nl : Netlist) : List String :=
  nl.shared.map Shared.name ++ nl.signals.map Signal.name

/-- **The identifiers of the pins** that make ports, in all directions. -/
def identifiers (nl : Netlist) : List String :=
  pinNames (nl.inputs ++ nl.outputs ++ nl.inouts)

/-- **The names that a circuit declares**: those of its ports and those of its signals. -/
def declared (nl : Netlist) : List String :=
  nl.ports.map Port.name ++ nl.signals.map Signal.name

/-- A signal has no shared name. -/
lemma not_isShared_of_mem_signals {name : String} (h : name ∈ nl.signals.map Signal.name) :
    ¬ Names.IsShared name := by
  obtain ⟨signal, hsignal, rfl⟩ := List.mem_map.1 h
  rcases List.mem_append.1 hsignal with hsignal | hsignal
  · obtain ⟨b, -, rfl⟩ := List.mem_map.1 hsignal
    exact not_isShared_of_net (.inl rfl)
  · obtain ⟨b, -, rfl⟩ := List.mem_map.1 hsignal
    exact not_isShared_of_net (.inr rfl)

/-- **The names that are made up are different.** -/
theorem madeUp_nodup (nl : Netlist) : nl.madeUp.Nodup := by
  refine List.nodup_append.2 ⟨(shared_nodup nl).map Shared.name_injective, signals_nodup nl, ?_⟩
  rintro _ hshared _ hsignal rfl
  obtain ⟨s, -, rfl⟩ := List.mem_map.1 hshared
  exact not_isShared_of_mem_signals hsignal s.isShared_name

lemma identifiers_eq (nl : Netlist) : nl.identifiers
    = pinNames nl.inputs ++ pinNames nl.outputs ++ pinNames nl.inouts := by
  simp [identifiers, pinNames]

/-- **What is declared is made up or comes from the label of a pin.** -/
theorem perm_declared (nl : Netlist) : nl.declared.Perm (nl.madeUp ++ nl.identifiers) := by
  have hshared : (nl.shared.map (Shared.port nl)).map Port.name = nl.shared.map Shared.name := by
    rw [List.map_map]
    exact List.map_congr_left fun s _ => s.name_port
  have hports := nl.perm_ports.map Port.name
  simp only [List.map_append, hshared, names_pinPorts, ← identifiers_eq] at hports
  refine (hports.append_right _).trans ?_
  rw [madeUp, List.append_assoc, List.append_assoc]
  exact List.perm_append_comm.append_left _

/-- **The declared names are different exactly if the pins have different identifiers**, none of
which is made up as well. -/
theorem declared_nodup_iff (nl : Netlist) :
    nl.declared.Nodup
      ↔ nl.identifiers.Nodup ∧ ∀ name ∈ nl.identifiers, name ∉ nl.madeUp := by
  rw [nl.perm_declared.nodup_iff, List.nodup_append', List.disjoint_comm]
  exact and_iff_right nl.madeUp_nodup

end Netlist

/-! ## Modules -/

namespace Context

variable {ctx : Context} {σ : Type} {offer : GeneratedModule → StateM σ (Except SinkError Unit)}
  {d : Dialect} {scope : String} {s : σ}

/-- **The names that an offered module declares.**  Whatever a run offers is what the origin of a
planned definition makes.  Where that is a circuit, the ports and signals of the definition are
declared under names that are made up, all different, and under the identifiers of the pins; and if
no pin has an identifier that is made up as well, all declared names are different exactly if those
of the pins are. -/
theorem offered_declares {m : GeneratedModule} (hm : m ∈ ctx.offered scope d offer s) :
    ∃ top, ctx.design.topCircuit? = some top
      ∧ ∃ o ∈ (ctx.plan top).origins, ctx.Makes d o m
        ∧ ∀ id gated, o = .circuit id gated → ∃ c definition, ctx.design.circuit? id = some c
          ∧ (ctx.definition c m.name).outcome = .ok definition
          ∧ m.interface = definition.interface d ∧ m.body = definition.body d
          ∧ definition.ports = c.netlist.ports ∧ definition.signals = c.netlist.signals
          ∧ c.netlist.declared.Perm (c.netlist.madeUp ++ c.netlist.identifiers)
          ∧ c.netlist.madeUp.Nodup
          ∧ ((∀ name ∈ c.netlist.identifiers, name ∉ c.netlist.madeUp) →
            (c.netlist.declared.Nodup ↔ c.netlist.identifiers.Nodup)) := by
  obtain ⟨top, htop, o, ho, hmakes⟩ := makes_of_mem_offered hm
  refine ⟨top, htop, o, ho, hmakes, ?_⟩
  rintro id gated rfl
  obtain ⟨attempt, definition, hattempt, hok, hname, hinterface, hbody⟩ := hmakes
  obtain ⟨c, hc, rfl⟩ := Option.map_eq_some_iff.1 hattempt
  rw [nameOf_circuit hc] at hname
  rw [← hname] at hok
  obtain ⟨declarations, sections, -, -, rfl⟩ := definition_eq_ok_iff.1 hok
  refine ⟨c, _, hc, hok, hinterface, hbody, rfl, rfl, c.netlist.perm_declared,
    c.netlist.madeUp_nodup, fun hlabels => ?_⟩
  rw [Netlist.declared_nodup_iff]
  exact and_iff_left hlabels

/-- A circuit with a clock tree, a wire and two pins of some labels. -/
def labelled (first second : String) : Context where
  design := {
    circuits := #[
      { name := "main", netlist := {
          nets := #[{ width := 1 }]
          inputs := [
            { label := first, terminals := [⟨.output, none, [some ⟨0, 0⟩]⟩] },
            { label := second, terminals := [⟨.output, none, [none]⟩] }]
          clockTrees := 1 } }] }

/-- With labels that give different identifiers, none of them made up, all names are different. -/
theorem offered_declares_apart :
    let ctx := labelled "a b" "a"
    let nl := ctx.design.circuits[0].netlist
    (∃ m, m ∈ ctx.offered "" .vhdl takeAll ())
    ∧ (∀ name ∈ nl.identifiers, name ∉ nl.madeUp) ∧ nl.identifiers.Nodup
    ∧ nl.declared = ["logisimClockTree0", "a_b", "a", "s_logisimNet0"]
    ∧ nl.declared.Nodup := by
  intro ctx nl
  have hlabels : ∀ name ∈ nl.identifiers, name ∉ nl.madeUp := by decide
  have hnodup : nl.identifiers.Nodup := by decide
  obtain ⟨m, hm⟩ : ∃ m, m ∈ ctx.offered "" .vhdl takeAll () := ⟨_, List.mem_singleton_self _⟩
  obtain ⟨top, htop, o, ho, -, hcircuit⟩ := offered_declares hm
  obtain rfl : ctx.design.circuits[0] = top := Option.some.inj htop
  obtain ⟨c, -, hc, -, -, -, -, -, -, -, hiff⟩ := hcircuit 0 false (List.mem_singleton.1 ho)
  obtain rfl : ctx.design.circuits[0] = c := Option.some.inj hc
  exact ⟨⟨m, hm⟩, hlabels, hnodup, by decide, (hiff hlabels).2 hnodup⟩

/-- Two labels may give one identifier, and a label may be the name of a net.  In either case the
design is accepted, and its module is written and declares a name twice. -/
theorem offered_declares_twice :
    let alike := labelled "a b" "a-b"
    let asNet := labelled "a" "s_logisimNet0"
    (alike.design.validate = .ok () ∧ asNet.design.validate = .ok ())
    ∧ (∃ summary, (alike.run "" .vhdl takeAll ()).1.outcome = .ok summary)
    ∧ (∃ summary, (asNet.run "" .vhdl takeAll ()).1.outcome = .ok summary)
    ∧ alike.design.circuits[0].netlist.declared
      = ["logisimClockTree0", "a_b", "a_b", "s_logisimNet0"]
    ∧ asNet.design.circuits[0].netlist.declared
      = ["logisimClockTree0", "a", "s_logisimNet0", "s_logisimNet0"]
    ∧ ¬ alike.design.circuits[0].netlist.declared.Nodup
    ∧ ¬ asNet.design.circuits[0].netlist.declared.Nodup :=
  ⟨⟨by decide, by decide⟩, ⟨_, rfl⟩, ⟨_, rfl⟩, by decide, by decide, by decide, by decide⟩

end Context

end Netscribe
