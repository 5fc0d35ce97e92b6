import Netscribe.Proofs.Design.Search
import Netscribe.Proofs.Netlist.Sound

/-!
# Which designs are accepted

A design is well formed if every reference in it leads to something that exists, every component
stands in a list for its kind, and no circuit is below itself.  The check of the library accepts the
well-formed designs and no others, and it never takes one from a word that is zero.

* `Circuit.Sound`, `Design.WellFormed` — the designs that are to be accepted.
* `Design.checkCircuit_eq_ok_iff`, `Design.validate_eq_ok_iff` — what each check accepts.
* `Design.validateStrict` — the check, stopped where a difference is no word.
* **`Design.validate_exact`** — the check accepts the well-formed designs, and never gets there.
-/

namespace Netscribe

/-! ## Well-formed designs -/

/-- **A circuit of a design that leads to nothing unknown**, and whose components stand where they
belong. -/
structure Circuit.Sound (d : Design) (c : Circuit) : Prop where
  nets : ∀ net ∈ c.netlist.nets, c.netlist.SoundNet net
  components : ∀ x ∈ c.netlist.components,
    (∃ factory attributes, x.kind = .primitive factory attributes) ∧ c.netlist.Attached x
  /-- Every instance is one of a circuit that exists. -/
  instances : ∀ x ∈ c.netlist.instances,
    (∃ target gated child, x.kind = .instance target gated ∧ d.circuit? target = some child)
      ∧ c.netlist.Attached x
  pins : ∀ x ∈ c.netlist.inputs ++ c.netlist.outputs ++ c.netlist.inouts,
    x.kind = .pin ∧ c.netlist.Attached x
  clocks : ∀ source ∈ c.netlist.clockSources, c.netlist.Attached source.component

/-- **A design in which every reference leads somewhere** and no circuit is below itself. -/
structure Design.WellFormed (d : Design) : Prop where
  top : ∃ c, d.topCircuit? = some c
  circuits : ∀ c ∈ d.circuits, c.Sound d
  acyclic : d.Acyclic

/-! ## What each check accepts -/

namespace Design

variable {d : Design}

lemma checkInstance_eq_ok_iff {nl : Netlist} {circuit : String} {c : Component} :
    d.checkInstance nl circuit c = .ok () ↔
      (∃ target gated child, c.kind = .instance target gated ∧ d.circuit? target = some child)
        ∧ nl.Attached c := by
  rw [checkInstance]
  cases c.kind with
  | pin => simp
  | primitive factory attributes => simp
  | «instance» target gated =>
      cases hc : d.circuit? target <;> simp [Netlist.checkComponent_eq_ok_iff, hc]

/-- **The check of a circuit.** -/
theorem checkCircuit_eq_ok_iff {c : Circuit} : d.checkCircuit c = .ok () ↔ c.Sound d := by
  have hnets : (∀ n ∈ c.netlist.numberedNets, c.netlist.checkNet c.name n.1 n.2 = .ok ())
      ↔ ∀ net ∈ c.netlist.nets, c.netlist.SoundNet net := by
    simp only [Netlist.checkNet_eq_ok_iff, Netlist.numberedNets]
    constructor
    · intro h net hnet
      rw [← Array.mem_toList_iff, ← List.zipIdx_map_fst 0 c.netlist.nets.toList] at hnet
      obtain ⟨n, hn, rfl⟩ := List.mem_map.1 hnet
      exact h n hn
    · intro h n hn
      refine h n.1 (Array.mem_toList_iff.1 ?_)
      rw [← List.zipIdx_map_fst 0 c.netlist.nets.toList]
      exact List.mem_map_of_mem hn
  simp only [checkCircuit, bind_eq_ok_iff, forM_eq_ok_iff, hnets,
    Netlist.checkPrimitive_eq_ok_iff, checkInstance_eq_ok_iff, Netlist.checkPin_eq_ok_iff,
    Netlist.checkComponent_eq_ok_iff]
  exact ⟨fun ⟨hnets, hcomponents, hinstances, hpins, hclocks⟩ =>
      ⟨hnets, hcomponents, hinstances, hpins, hclocks⟩,
    fun h => ⟨h.nets, h.components, h.instances, h.pins, h.clocks⟩⟩

/-- What a circuit instantiates exists, if all instances are of circuits that do. -/
lemma exists_of_instantiates (h : ∀ c ∈ d.circuits, c.Sound d) {id child : UInt32}
    (hstep : d.Instantiates id child) : (d.circuit? child).isSome := by
  obtain ⟨c, hc, hchild⟩ := hstep
  obtain ⟨x, hx, htarget⟩ := List.mem_filterMap.1 hchild
  obtain ⟨⟨target, gated, childCircuit, hkind, hcircuit⟩, -⟩ :=
    (h c (Array.mem_of_getElem? hc)).instances x hx
  simp only [Component.target?, hkind, Option.map_some, Option.some.injEq] at htarget
  simp [← htarget, hcircuit]

/-- The check of a design, one part after the other. -/
lemma validate_eq :
    d.validate =
      if d.topCircuit?.isNone then .error (.unknownCircuit d.top)
      else (do
        d.circuits.toList.forM d.checkCircuit
        d.checkAcyclic) := by
  rw [validate]
  split <;> rfl

/-- **The check accepts the well-formed designs** and no others. -/
theorem validate_eq_ok_iff : d.validate = .ok () ↔ d.WellFormed := by
  rw [validate_eq]
  split
  · next htop =>
      refine iff_of_false (fun h => nomatch h) fun h => ?_
      obtain ⟨c, hc⟩ := h.top
      simp [hc] at htop
  · next htop =>
      have htop : ∃ c, d.topCircuit? = some c :=
        Option.ne_none_iff_exists'.1 (by simpa using htop)
      simp only [bind_eq_ok_iff, forM_eq_ok_iff, checkCircuit_eq_ok_iff, Array.mem_toList_iff]
      constructor
      · rintro ⟨hcircuits, hcheck⟩
        exact ⟨htop, hcircuits, (checkAcyclic_eq_ok_iff fun _ _ =>
          exists_of_instantiates hcircuits).1 hcheck⟩
      · intro h
        exact ⟨h.circuits, (checkAcyclic_eq_ok_iff fun _ _ =>
          exists_of_instantiates h.circuits).2 h.acyclic⟩

end Design

/-! ## Arithmetic that leaves the words -/

/-- How a check ends early that does not get around a difference of words. -/
inductive Halt where
  | refused (cause : DesignError)
  /-- A difference is no word. -/
  | underflow
  deriving DecidableEq

/-- The difference of two words, where it is a word again. -/
def subWord? (a b : UInt32) : Option UInt32 :=
  if b ≤ a then some (a - b) else none

namespace Netlist

variable (nl : Netlist) (circuit : String)

/-- The check of a view, stopped where the last bit of the net is no word. -/
def checkParentStrict (net : Net) (id : ℕ) : Except Halt Unit :=
  match net.parent with
  | none => .ok ()
  | some view =>
    match subWord? net.width 1 with
    | none => .error .underflow
    | some last =>
      match addWord? view.offset last with
      | none => .error (.refused (.viewPastEnd circuit id view.net))
      | some bit => (nl.checkPoint circuit ⟨view.net, bit⟩).mapError .refused

/-- The check of a net, stopped where it computes what is no word. -/
def checkNetStrict (net : Net) (id : ℕ) : Except Halt Unit := do
  if net.width = 0 then throw (.refused (.zeroWidth circuit id))
  nl.checkParentStrict circuit net id
  (net.sources.flatten.forM (nl.checkPoint circuit)).mapError .refused
  (net.sinks.flatten.forM (nl.checkPoint circuit)).mapError .refused

end Netlist

namespace Design

variable (d : Design)

/-- The check of a circuit, stopped where it computes what is no word. -/
def checkCircuitStrict (c : Circuit) : Except Halt Unit := do
  let nl := c.netlist
  nl.numberedNets.forM fun (net, id) => nl.checkNetStrict c.name net id
  (nl.components.forM (nl.checkPrimitive c.name)).mapError .refused
  (nl.instances.forM (d.checkInstance nl c.name)).mapError .refused
  ((nl.inputs ++ nl.outputs ++ nl.inouts).forM (nl.checkPin c.name)).mapError .refused
  (nl.clockSources.forM fun clock => nl.checkComponent c.name clock.component).mapError .refused

/-- **The check of a design, stopped where it computes what is no word.** -/
def validateStrict : Except Halt Unit := do
  if d.topCircuit?.isNone then throw (.refused (.unknownCircuit d.top))
  d.circuits.toList.forM d.checkCircuitStrict
  d.checkAcyclic.mapError .refused

end Design

/-- One can be taken from a positive width, and from no other. -/
lemma subWord?_one {w : UInt32} (h : w ≠ 0) : subWord? w 1 = some (w - 1) := by
  have := toNat_sub_one h
  exact if_pos (UInt32.le_iff_toNat_le.2 (by show 1 ≤ _; omega))

namespace Netlist

variable {nl : Netlist} {circuit : String} {net : Net} {id : ℕ}

lemma checkParentStrict_eq (h : net.width ≠ 0) :
    nl.checkParentStrict circuit net id = (nl.checkParent circuit net id).mapError .refused := by
  rw [checkParentStrict, checkParent]
  cases net.parent with
  | none => rfl
  | some view =>
      simp only [subWord?_one h]
      cases addWord? view.offset (net.width - 1) <;> rfl

/-- A net without bits is refused before its last bit is computed. -/
lemma checkNetStrict_eq :
    nl.checkNetStrict circuit net id = (nl.checkNet circuit net id).mapError .refused := by
  rw [checkNetStrict, checkNet_eq]
  split
  · rfl
  · next hwidth =>
      rw [mapError_bind, mapError_bind, ← checkParentStrict_eq hwidth]

end Netlist

namespace Design

variable {d : Design}

lemma checkCircuitStrict_eq {c : Circuit} :
    d.checkCircuitStrict c = (d.checkCircuit c).mapError .refused := by
  simp only [checkCircuitStrict, checkCircuit, mapError_bind, Netlist.checkNetStrict_eq,
    mapError_forM]

lemma validateStrict_eq : d.validateStrict = d.validate.mapError .refused := by
  rw [validateStrict, validate_eq]
  split
  · rfl
  · rw [mapError_bind, mapError_forM]
    simp only [← checkCircuitStrict_eq]

/-- **The check is exact.**  It accepts the well-formed designs and no others; and if it is stopped
where a difference of words is none, it comes to the same: no design gets it there. -/
theorem validate_exact (d : Design) :
    (d.validate = .ok () ↔ d.WellFormed)
      ∧ d.validateStrict = d.validate.mapError .refused :=
  ⟨validate_eq_ok_iff, validateStrict_eq⟩

end Design

end Netscribe
