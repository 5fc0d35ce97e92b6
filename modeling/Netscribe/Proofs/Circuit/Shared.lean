import Netscribe.Proofs.Circuit.Generable
import Netscribe.Proofs.Circuit.Interface
import Netscribe.Proofs.Circuit.References

/-!
# What circuits share

Clock trees, the board clock and bubbles go through the hierarchy under names that are the same in
every circuit.  A circuit has a port for each of those that it needs, and an instance binds it to the
port of the same name around it, or to a part of that.  All other ports are those of pins, and an
instance binds them to what its terminals meet.

* `Shared`, `Netlist.shared` — what may be shared, and what a circuit needs of it.
* `Shared.name_injective`, `Netlist.shared_nodup` — it is told apart by its names.
* `Netlist.perm_ports` — the ports of a circuit: one for all that it shares, and those of its pins.
* `Netlist.instanceBindings_shared` — the bindings of an instance, in the same parts.
* `Netlist.perm_entries_shared`, `Netlist.perm_entries_pin` — what stands in its port map.
-/

namespace Netscribe

/-! ## Names -/

namespace Names

/-- The port of the bubbles of a direction. -/
def bubbles : Direction → String
  | .input => inputBubbles
  | .output => outputBubbles
  | .inout => inoutBubbles

lemma clockTree_injective : Function.Injective clockTree := by
  intro m n h
  exact Nat.repr_injective ((String.append_right_inj _).1 h)

lemma bubbles_injective : Function.Injective bubbles := by
  intro direction direction' h
  revert h
  cases direction <;> cases direction' <;> decide

/-- The name of a clock tree is no other shared name: they differ in the eighth character. -/
lemma clockTree_ne {tree : ℕ} {name : String}
    (h : name ∈ [globalClock, inputBubbles, outputBubbles, inoutBubbles]) :
    clockTree tree ≠ name := by
  rintro rfl
  have hchar : (clockTree tree).toList[7]? = some 'C' := by
    show ("logisimClockTree" ++ toString tree).toList[7]? = _
    simp
  simp only [List.mem_cons, List.not_mem_nil, or_false] at h
  rcases h with h | h | h | h <;> rw [h] at hchar <;> revert hchar <;> decide

lemma globalClock_ne_bubbles (direction : Direction) : globalClock ≠ bubbles direction := by
  cases direction <;> decide

end Names

/-- **What circuits share** with the circuits around them. -/
inductive Shared
  | clockTree (tree : ℕ)
  | globalClock
  | bubbles (direction : Direction)
  deriving DecidableEq

namespace Shared

/-- The name under which it goes through circuits. -/
def name : Shared → String
  | .clockTree tree => Names.clockTree tree
  | .globalClock => Names.globalClock
  | .bubbles direction => Names.bubbles direction

lemma isShared_name (s : Shared) : Names.IsShared s.name := by
  cases s with
  | clockTree tree => exact .inl ⟨tree, rfl⟩
  | globalClock => exact .inr (by simp [name])
  | bubbles direction => cases direction <;> exact .inr (by simp [name, Names.bubbles])

lemma name_injective : Function.Injective name := by
  have hclock : ∀ tree s, Names.clockTree tree = name s → s = .clockTree tree := by
    intro tree s h
    cases s with
    | clockTree tree' => rw [Names.clockTree_injective h]
    | globalClock => exact absurd h (Names.clockTree_ne (by simp [name]))
    | bubbles direction =>
        refine absurd h (Names.clockTree_ne ?_)
        cases direction <;> simp [name, Names.bubbles]
  intro s t h
  cases s with
  | clockTree tree => exact (hclock tree t h).symm
  | globalClock =>
      cases t with
      | clockTree tree => exact hclock tree _ h.symm
      | globalClock => rfl
      | bubbles direction => exact absurd h (Names.globalClock_ne_bubbles direction)
  | bubbles direction =>
      cases t with
      | clockTree tree => exact hclock tree _ h.symm
      | globalClock => exact absurd h.symm (Names.globalClock_ne_bubbles direction)
      | bubbles direction' => rw [Names.bubbles_injective h]

end Shared

/-! ## What a circuit needs -/

namespace Netlist

variable {nl : Netlist}

def bubbleCount (nl : Netlist) : Direction → ℕ
  | .input => nl.inputBubbles.toNat
  | .output => nl.outputBubbles.toNat
  | .inout => nl.inoutBubbles.toNat

/-- The bubbles of a direction, where there are any. -/
def sharedBubbles (nl : Netlist) (direction : Direction) : List Shared :=
  if 0 < nl.bubbleCount direction then [.bubbles direction] else []

/-- The board clock, where the circuit needs it. -/
def sharedClock (nl : Netlist) : List Shared :=
  if nl.requiresGlobalClock then [.globalClock] else []

/-- **What a circuit shares** with the circuits around it. -/
def shared (nl : Netlist) : List Shared :=
  (List.range nl.clockTrees.toNat).map .clockTree
    ++ (nl.sharedClock ++ nl.sharedBubbles .inout ++ nl.sharedBubbles .input
      ++ nl.sharedBubbles .output)

@[simp] lemma clockTree_mem_shared {tree : ℕ} :
    .clockTree tree ∈ nl.shared ↔ tree < nl.clockTrees.toNat := by
  simp [shared, sharedClock, sharedBubbles]

@[simp] lemma globalClock_mem_shared : .globalClock ∈ nl.shared ↔ nl.requiresGlobalClock = true := by
  simp [shared, sharedClock, sharedBubbles]

@[simp] lemma bubbles_mem_shared {direction : Direction} :
    .bubbles direction ∈ nl.shared ↔ 0 < nl.bubbleCount direction := by
  cases direction <;> simp [shared, sharedClock, sharedBubbles]

lemma shared_nodup (nl : Netlist) : nl.shared.Nodup := by
  have hbubbles : ∀ direction, (nl.sharedBubbles direction).Sublist [.bubbles direction] := by
    intro direction
    rw [sharedBubbles]
    split <;> simp
  have hclock : nl.sharedClock.Sublist [.globalClock] := by
    rw [sharedClock]
    split <;> simp
  have hsingle := ((hclock.append (hbubbles .inout)).append (hbubbles .input)).append
    (hbubbles .output)
  refine List.nodup_append.2 ⟨List.nodup_range.map fun _ _ => Shared.clockTree.inj,
    hsingle.nodup (by decide), ?_⟩
  rintro _ hmem s hs rfl
  obtain ⟨tree, -, rfl⟩ := List.mem_map.1 hmem
  exact absurd (hsingle.subset hs) (by simp)

end Netlist

/-! ## Ports -/

def Shared.port (nl : Netlist) : Shared → Port
  | .clockTree tree => ⟨.input, Names.clockTree tree, Names.clockTreeWidth⟩
  | .globalClock => ⟨.input, Names.globalClock, 1⟩
  | .bubbles direction => ⟨direction, Names.bubbles direction, bubbleWidth (nl.bubbleCount direction)⟩

@[simp] lemma Shared.name_port {nl : Netlist} (s : Shared) : (s.port nl).name = s.name := by
  cases s <;> rfl

lemma Direction.exists_iff {p : Direction → Prop} :
    (∃ direction, p direction) ↔ p .input ∨ p .output ∨ p .inout := by
  constructor
  · rintro ⟨direction, h⟩
    cases direction with
    | input => exact .inl h
    | output => exact .inr (.inl h)
    | inout => exact .inr (.inr h)
  · rintro (h | h | h) <;> exact ⟨_, h⟩

namespace Netlist

variable {nl child : Netlist} {p : Port}

/-- **The ports of a circuit**, in another order: for what it shares, and those of its pins. -/
theorem perm_ports (nl : Netlist) :
    nl.ports.Perm (nl.shared.map (Shared.port nl) ++ (pinPorts .input nl.inputs
      ++ pinPorts .output nl.outputs ++ pinPorts .inout nl.inouts)) := by
  have htrees : ((List.range nl.clockTrees.toNat).map Shared.clockTree).map (Shared.port nl)
      = nl.clockTreePorts := List.map_map
  have hclock : nl.sharedClock.map (Shared.port nl) = nl.globalClockPort := by
    rw [sharedClock, globalClockPort]
    split <;> rfl
  have hbubbles : ∀ direction, (nl.sharedBubbles direction).map (Shared.port nl)
      = bubblePort direction (Names.bubbles direction) (nl.bubbleCount direction) := by
    intro direction
    rw [sharedBubbles, bubblePort]
    split <;> rfl
  rw [shared, List.perm_iff_count]
  intro p
  simp only [ports, List.map_append, htrees, hclock, hbubbles, List.count_append, Names.bubbles,
    bubbleCount]
  omega

lemma mem_ports_iff : p ∈ nl.ports ↔ (∃ s ∈ nl.shared, s.port nl = p)
    ∨ ∃ direction, p ∈ pinPorts direction (nl.pins direction) := by
  simp only [nl.perm_ports.mem_iff, List.mem_append, List.mem_map, Direction.exists_iff, pins,
    or_assoc]

lemma name_mem_of_mem_pinPorts {direction : Direction} {pins : List Component}
    (h : p ∈ pinPorts direction pins) : p.name ∈ pinNames pins := by
  rw [← names_pinPorts direction]
  exact List.mem_map_of_mem h

end Netlist

/-! ## Bindings of an instance -/

/-- The part of a component in the bubbles of a direction. -/
def Bubbles.range (b : Bubbles) : Direction → Option BubbleRange
  | .input => b.input
  | .output => b.output
  | .inout => b.inout

/-- What an instance binds a shared port to, in the circuit around it. -/
def Shared.passed (nl : Netlist) (x : Component) : Shared → Ref
  | .clockTree tree => .whole (Names.clockTree tree)
  | .globalClock => .whole Names.globalClock
  | .bubbles direction =>
    bubbleSlice (Names.bubbles direction) (x.bubbles.range direction) (nl.bubbleCount direction)

namespace Netlist

variable {nl child : Netlist} {x : Component} {p : Port} {s : Shared} {direction : Direction}
  {bindings : List (String × Binding)} {b : String × Binding}

/-- A shared port with what an instance binds it to. -/
def passes (nl : Netlist) (x : Component) (s : Shared) : String × Binding :=
  (s.name, .whole (.ref (s.passed nl x)))

/-- **What an instance binds**: all that its circuit shares, and what the terminals for its pins
meet. -/
theorem instanceBindings_shared :
    (nl.instanceBindings x child).outcome = .ok bindings ↔
      ∃ inputs outputs inouts, (nl.pinBindings x .input child.inputs).outcome = .ok inputs
        ∧ (nl.pinBindings x .output child.outputs).outcome = .ok outputs
        ∧ (nl.pinBindings x .inout child.inouts).outcome = .ok inouts
        ∧ child.shared.map (nl.passes x) ++ inputs ++ outputs ++ inouts = bindings := by
  have htrees : ((List.range child.clockTrees.toNat).map Shared.clockTree).map (nl.passes x)
      = child.clockTreeBindings id := List.map_map
  have hclock : child.sharedClock.map (nl.passes x) = child.globalClockBinding := by
    rw [sharedClock, globalClockBinding]
    split <;> rfl
  have hbubbles : ∀ direction, (child.sharedBubbles direction).map (nl.passes x)
      = bubbleBinding (Names.bubbles direction) (child.bubbleCount direction)
          (x.bubbles.range direction) (nl.bubbleCount direction) := by
    intro direction
    rw [sharedBubbles, bubbleBinding]
    split <;> rfl
  simp only [instanceBindings_eq_ok_iff, shared, List.map_append, htrees, hclock, hbubbles,
    List.append_assoc]
  rfl

lemma mem_pinBindings_iff {pins : List Component}
    (h : (nl.pinBindings x direction pins).outcome = .ok bindings) :
    b ∈ bindings ↔ ∃ name ∈ pinNames pins, (nl.pinBinding x direction name).outcome = .ok b := by
  have heach := pinBindings_eq_ok_iff.1 h
  constructor
  · exact exists_mem_of_forall₂ heach
  · rintro ⟨name, hname, hb⟩
    obtain ⟨b', hb', hsame⟩ := exists_mem_of_forall₂ heach.flip hname
    rwa [← Except.ok.inj (hsame.symm.trans hb)]

lemma mem_instanceBindings_iff (h : (nl.instanceBindings x child).outcome = .ok bindings) :
    b ∈ bindings ↔ (∃ s ∈ child.shared, nl.passes x s = b)
      ∨ ∃ direction, ∃ name ∈ pinNames (child.pins direction),
        (nl.pinBinding x direction name).outcome = .ok b := by
  obtain ⟨inputs, outputs, inouts, hinputs, houtputs, hinouts, rfl⟩ := instanceBindings_shared.1 h
  simp only [List.mem_append, List.mem_map, mem_pinBindings_iff hinputs,
    mem_pinBindings_iff houtputs, mem_pinBindings_iff hinouts, Direction.exists_iff, pins, or_assoc]

/-! ## Entries of its port map -/

/-- The entries of a port with a name of its own are those that its binding needs. -/
lemma perm_entries_instance (h : (nl.instanceBindings x child).outcome = .ok bindings)
    (hb : b ∈ bindings) (hone : (child.ports.map Port.name).count b.1 = 1) (d : Dialect) :
    ((PortMap.ofBindings d bindings).entries d b.1).Perm (d.associations b.1 b.2) := by
  have hperm := perm_instanceBindings h
  refine PortMap.perm_entries (fun b' hb' => ?_) hb fun b' hb' hname => ?_
  · exact isWord_of_mem_ports (hperm.subset (List.mem_map_of_mem hb'))
  · rw [← hperm.count_eq] at hone
    exact eq_of_count_map hone hb hb' hname

lemma perm_entries_shared (h : (nl.instanceBindings x child).outcome = .ok bindings)
    (hs : s ∈ child.shared) (hone : (child.ports.map Port.name).count s.name = 1) (d : Dialect) :
    ((PortMap.ofBindings d bindings).entries d s.name).Perm
      (d.associations s.name (.whole (.ref (s.passed nl x)))) :=
  perm_entries_instance h ((mem_instanceBindings_iff h).2 (.inl ⟨s, hs, rfl⟩)) hone d

/-- The entries of the port of a pin, with the terminal that meets it. -/
lemma perm_entries_pin (h : (nl.instanceBindings x child).outcome = .ok bindings)
    (hp : p ∈ pinPorts direction (child.pins direction))
    (hone : (child.ports.map Port.name).count p.name = 1) (d : Dialect) :
    ∃ index t, x.terminalIndex? p.name direction = some index ∧ x.terminal? index = some t
      ∧ ((PortMap.ofBindings d bindings).entries d p.name).Perm
        (d.associations p.name ((nl.wiresOf t).binding t.direction.mayFloat t.width)) := by
  have hname := name_mem_of_mem_pinPorts hp
  obtain ⟨b, hb⟩ : (nl.pinBinding x direction p.name).Succeeds := by
    obtain ⟨pin, hpin, hport, hlabel⟩ := mem_pinNames.1 hname
    rw [← hlabel]
    exact pinBinding_succeeds_iff.2 (Component.isSome_terminalIndex?.2
      (instanceBindings_succeeds_iff.1 ⟨bindings, h⟩ direction pin hpin hport))
  have hmem := (mem_instanceBindings_iff h).2 (.inr ⟨direction, p.name, hname, hb⟩)
  obtain ⟨index, binding, hindex, hbinding, rfl⟩ := pinBinding_eq_ok_iff.1 hb
  obtain ⟨t, ht, rfl⟩ := terminalBinding_eq_ok_iff.1 hbinding
  exact ⟨index, t, hindex, ht, perm_entries_instance h hmem hone d⟩

end Netlist

end Netscribe
