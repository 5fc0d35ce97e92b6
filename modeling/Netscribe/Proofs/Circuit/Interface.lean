import Netscribe.Proofs.Circuit.Parts
import Netscribe.Proofs.Circuit.Terminal
import Netscribe.Proofs.Hdl.PortMap

/-!
# Port maps match interfaces

The ports of a definition are put together in one place, and what they are bound to in three
others: for an instance in a circuit, for the top circuit on a board and for a placed multiplexer.
All four go through the bubbles, the clocks and the pins by the same conditions.

* `Netlist.portNames_eq`, `Netlist.perm_instanceBindings`, `Netlist.perm_boardBindings` — what is
  bound are the ports, in another order.
* `Board.exists_bubble?_eq` — any assignment of bubbles is that of a board.
* **`PortMap.matches_ports`** — each of the port maps matches its ports.
-/

namespace Netscribe

/-! ## Names of ports -/

lemma isWord_clockTree (tree : ℕ) : IsWord (Names.clockTree tree) :=
  IsWord.append (by decide) (IsWord.natural tree)

lemma isWord_of_mem_pinNames {pins : List Component} {name : String} (h : name ∈ pinNames pins) :
    IsWord name := by
  obtain ⟨pin, -, -, rfl⟩ := mem_pinNames.1 h
  exact IsWord.ofLabel pin.label

/-- The name of a bubble port, where there are any bubbles. -/
def bubbleNames (bus : String) (count : ℕ) : List String :=
  if 0 < count then [bus] else []

namespace Netlist

/-- The names of the clock ports. -/
def clockNames (nl : Netlist) : List String :=
  (List.range nl.clockTrees.toNat).map Names.clockTree
    ++ if nl.requiresGlobalClock then [Names.globalClock] else []

variable {nl : Netlist} {c : Component}

lemma names_pinPorts (direction : Direction) (pins : List Component) :
    (pinPorts direction pins).map Port.name = pinNames pins := by
  rw [pinPorts, pinNames, List.map_map]
  rfl

lemma portNames_eq (nl : Netlist) :
    nl.ports.map Port.name =
      bubbleNames Names.inoutBubbles nl.inoutBubbles.toNat ++ nl.clockNames
        ++ bubbleNames Names.inputBubbles nl.inputBubbles.toNat ++ pinNames nl.inputs
        ++ bubbleNames Names.outputBubbles nl.outputBubbles.toNat ++ pinNames nl.outputs
        ++ pinNames nl.inouts := by
  have hbubbles : ∀ direction name count,
      (bubblePort direction name count).map Port.name = bubbleNames name count := by
    intro direction name count
    rw [bubblePort, bubbleNames]
    split <;> rfl
  have hclocks : nl.clockTreePorts.map Port.name ++ nl.globalClockPort.map Port.name
      = nl.clockNames := by
    rw [clockTreePorts, globalClockPort, clockNames, List.map_map]
    split <;> rfl
  simp only [ports, List.map_append, hbubbles, names_pinPorts, ← hclocks, List.append_assoc]

lemma isWord_of_mem_ports {name : String} (h : name ∈ nl.ports.map Port.name) : IsWord name := by
  have hbubbles : ∀ {bus count}, IsWord bus → name ∈ bubbleNames bus count → IsWord name := by
    intro bus count hbus h
    obtain ⟨-, h⟩ := List.mem_ite_nil_right.1 h
    rwa [List.mem_singleton.1 h]
  rw [portNames_eq] at h
  simp only [List.mem_append, or_assoc] at h
  rcases h with h | h | h | h | h | h | h
  · exact hbubbles (by decide) h
  · rcases List.mem_append.1 h with h | h
    · obtain ⟨tree, -, rfl⟩ := List.mem_map.1 h
      exact isWord_clockTree tree
    · obtain ⟨-, h⟩ := List.mem_ite_nil_right.1 h
      rw [List.mem_singleton.1 h]
      decide
  · exact hbubbles (by decide) h
  · exact isWord_of_mem_pinNames h
  · exact hbubbles (by decide) h
  · exact isWord_of_mem_pinNames h
  · exact isWord_of_mem_pinNames h

/-! ## Instances -/

lemma map_fst_pinBindings {direction : Direction} {pins : List Component}
    {bindings : List (String × Binding)}
    (h : (nl.pinBindings c direction pins).outcome = .ok bindings) :
    bindings.map Prod.fst = pinNames pins := by
  have hmap := map_eq_map_of_forall₂ (f := id) (g := Prod.fst)
    ((pinBindings_eq_ok_iff.1 h).imp fun port b hb => by
      obtain ⟨index, binding, -, -, rfl⟩ := pinBinding_eq_ok_iff.1 hb
      rfl)
  rw [← hmap, List.map_id]

lemma map_fst_clockBindings (nl : Netlist) (name : String → String) :
    (nl.clockTreeBindings name ++ nl.globalClockBinding).map Prod.fst = nl.clockNames := by
  rw [clockTreeBindings, globalClockBinding, clockNames, List.map_append, List.map_map]
  split <;> rfl

lemma map_fst_bubbleBinding {bus : String} {count enclosing : ℕ} {range : Option BubbleRange} :
    (bubbleBinding bus count range enclosing).map Prod.fst = bubbleNames bus count := by
  rw [bubbleBinding, bubbleNames]
  split <;> rfl

/-- **What an instance binds are the ports of its circuit**, in another order. -/
lemma perm_instanceBindings {child : Netlist} {bindings : List (String × Binding)}
    (h : (nl.instanceBindings c child).outcome = .ok bindings) :
    (bindings.map Prod.fst).Perm (child.ports.map Port.name) := by
  obtain ⟨inputs, outputs, inouts, hinputs, houtputs, hinouts, rfl⟩ :=
    instanceBindings_eq_ok_iff.1 h
  have hclocks := child.map_fst_clockBindings id
  rw [List.map_append] at hclocks
  simp only [List.map_append, hclocks, map_fst_bubbleBinding, map_fst_pinBindings hinputs,
    map_fst_pinBindings houtputs, map_fst_pinBindings hinouts, portNames_eq]
  rw [List.perm_iff_count]
  intro name
  simp only [List.count_append]
  omega

/-- A terminal is bound bit by bit only if it has several bits. -/
lemma length_of_binding_eq_bits {t : Terminal} {mayFloat : Bool} {width : ℕ} {as : List Actual}
    (h : (nl.wiresOf t).binding mayFloat width = .bits as) :
    0 < as.length ∧ as.length = t.width := by
  revert h
  refine wiresOf_cases (fun b _ h => ?_) (fun _ _ h => ?_) (fun _ _ range hrange h => ?_)
    (fun _ hsome h => ?_)
  · cases hs : nl.signalAt b <;> rw [hs] at h <;> cases h
  · cases h
  · cases h
  · obtain rfl := Binding.bits.inj h
    have hne : t.bits ≠ [] := by
      rintro hnil
      exact hsome (by simp [hnil])
    simpa [Terminal.width] using List.length_pos_iff.2 hne

end Netlist

/-- The width of the terminal that carries a port of an instance. -/
def Component.PortWidth (c : Component) (ports : List Port) (name : String) (width : ℕ) : Prop :=
  ∃ p ∈ ports, p.name = name ∧ ∃ index t, c.terminalIndex? name p.direction = some index
    ∧ c.terminal? index = some t ∧ t.width = width

namespace Netlist

variable {nl : Netlist} {c : Component}

lemma bits_pinBindings {direction : Direction} {pins : List Component} {ports : List Port}
    {bindings : List (String × Binding)}
    (h : (nl.pinBindings c direction pins).outcome = .ok bindings)
    (hports : pinPorts direction pins ⊆ ports) :
    ∀ b ∈ bindings, ∀ as, b.2 = .bits as →
      0 < as.length ∧ c.PortWidth ports b.1 as.length := by
  intro b hb as has
  obtain ⟨port, hport, hb⟩ := exists_mem_of_forall₂ (pinBindings_eq_ok_iff.1 h) hb
  obtain ⟨index, binding, hindex, hbinding, rfl⟩ := pinBinding_eq_ok_iff.1 hb
  obtain ⟨t, ht, rfl⟩ := terminalBinding_eq_ok_iff.1 hbinding
  obtain ⟨hpos, hlen⟩ := length_of_binding_eq_bits has
  obtain ⟨⟨name, width⟩, hname, rfl⟩ := List.mem_map.1 hport
  exact ⟨hpos, ⟨direction, name, width⟩, hports (List.mem_map_of_mem hname), rfl, index, t, hindex,
    ht, hlen.symm⟩

lemma not_mem_of_whole {bs : List (String × Binding)} (hbs : ∀ b ∈ bs, ∃ a, b.2 = .whole a)
    {b : String × Binding} {as : List Actual} (has : b.2 = .bits as) : b ∉ bs := by
  intro hb
  obtain ⟨a, ha⟩ := hbs b hb
  cases has.symm.trans ha

lemma whole_clockBindings {name : String → String} :
    ∀ b ∈ nl.clockTreeBindings name ++ nl.globalClockBinding, ∃ a, b.2 = .whole a := by
  intro b hb
  rcases List.mem_append.1 hb with hb | hb
  · obtain ⟨tree, -, rfl⟩ := List.mem_map.1 hb
    exact ⟨_, rfl⟩
  · obtain ⟨-, hb⟩ := List.mem_ite_nil_right.1 hb
    rw [List.mem_singleton.1 hb]
    exact ⟨_, rfl⟩

lemma whole_bubbleBinding {bus : String} {count enclosing : ℕ} {range : Option BubbleRange} :
    ∀ b ∈ bubbleBinding bus count range enclosing, ∃ a, b.2 = .whole a := by
  intro b hb
  obtain ⟨-, hb⟩ := List.mem_ite_nil_right.1 hb
  rw [List.mem_singleton.1 hb]
  exact ⟨_, rfl⟩

/-- **The port map of an instance matches the ports of its circuit.** -/
theorem matches_instanceBindings {child : Netlist} {bindings : List (String × Binding)}
    (d : Dialect) (h : (nl.instanceBindings c child).outcome = .ok bindings) :
    (PortMap.ofBindings d bindings).Matches d (child.ports.map Port.name)
      (c.PortWidth child.ports) := by
  refine PortMap.matches_ofBindings (perm_instanceBindings h) (fun _ => isWord_of_mem_ports)
    fun b hb as has => ?_
  -- only pins are bound bit by bit
  have hpins : 0 < as.length ∧ c.PortWidth child.ports b.1 as.length := by
    obtain ⟨inputs, outputs, inouts, hinputs, houtputs, hinouts, rfl⟩ :=
      instanceBindings_eq_ok_iff.1 h
    rcases List.mem_append.1 hb with hb | hb
    · rcases List.mem_append.1 hb with hb | hb
      · rcases List.mem_append.1 hb with hb | hb
        · simp only [List.mem_append, not_mem_of_whole whole_bubbleBinding has, or_false] at hb
          exact absurd (List.mem_append.2 hb) (not_mem_of_whole whole_clockBindings has)
        · exact bits_pinBindings hinputs (fun p hp => by simp [ports, hp]) b hb as has
      · exact bits_pinBindings houtputs (fun p hp => by simp [ports, hp]) b hb as has
    · exact bits_pinBindings hinouts (fun p hp => by simp [ports, hp]) b hb as has
  exact ⟨hpins.1, fun _ => hpins.2⟩

/-! ## Boards -/

section Boards

variable {board : Board} {bindings : List (String × Binding)}

lemma map_fst_boardBus (bus : String) (count : ℕ) :
    (boardBus bus count).map Prod.fst = bubbleNames bus count := by
  rw [boardBus, bubbleNames]
  split <;> rfl

lemma whole_boardBus {bus : String} {count : ℕ} :
    ∀ b ∈ boardBus bus count, ∃ a, b.2 = .whole a := by
  intro b hb
  obtain ⟨-, hb⟩ := List.mem_ite_nil_right.1 hb
  rw [List.mem_singleton.1 hb]
  exact ⟨_, rfl⟩

lemma map_fst_boardBubbles (nl : Netlist) (board : Board) :
    (nl.boardBubbles board).map Prod.fst
      = bubbleNames Names.inoutBubbles nl.inoutBubbles.toNat := by
  rw [boardBubbles, bubbleNames]
  simp only [UInt32.lt_iff_toNat_lt, UInt32.toNat_zero]
  split <;> rfl

/-- **What is bound on a board are the ports of the top circuit**, in another order. -/
lemma perm_boardBindings (h : (nl.boardBindings board).outcome = .ok bindings) :
    (bindings.map Prod.fst).Perm (nl.ports.map Port.name) := by
  obtain rfl := Except.ok.inj h
  have hclocks := nl.map_fst_clockBindings Names.onBoard
  rw [List.map_append] at hclocks
  have hpins : ∀ bind : String × ℕ → String × Binding, (∀ p, (bind p).1 = p.1) →
      (((nl.inputs ++ nl.outputs ++ nl.inouts).filterMap Component.pinPort?).map bind).map Prod.fst
        = pinNames nl.inputs ++ pinNames nl.outputs ++ pinNames nl.inouts := by
    intro bind hbind
    have hfst : Prod.fst ∘ bind = Prod.fst := funext hbind
    simp only [pinNames, List.map_map, List.filterMap_append, List.map_append, hfst]
  rw [List.map_append, hpins _ fun _ => rfl]
  simp only [List.map_append, hclocks, map_fst_boardBus, map_fst_boardBubbles, portNames_eq]
  rw [List.perm_iff_count]
  intro name
  simp only [List.count_append]
  omega

/-- **The port map of the top circuit on a board matches its ports**: the bubbles in both directions
are split into as many elements as the port has bits. -/
lemma matches_boardBindings (d : Dialect) (h : (nl.boardBindings board).outcome = .ok bindings) :
    (PortMap.ofBindings d bindings).Matches d (nl.ports.map Port.name)
      (fun name width => ∃ p ∈ nl.ports, p.name = name ∧ p.width = width) := by
  refine PortMap.matches_ofBindings (perm_boardBindings h) (fun _ => isWord_of_mem_ports)
    fun b hb as has => ?_
  obtain rfl := Except.ok.inj h
  simp only [List.mem_append, not_mem_of_whole whole_boardBus has, or_false] at hb
  rcases hb with (hb | hb) | hb
  · exact absurd (List.mem_append.2 hb) (not_mem_of_whole whole_clockBindings has)
  · obtain ⟨hcount, hb⟩ := List.mem_ite_nil_right.1 hb
    obtain rfl := List.mem_singleton.1 hb
    obtain rfl := Binding.bits.inj has
    have hpos : 0 < nl.inoutBubbles.toNat := UInt32.lt_iff_toNat_lt.1 hcount
    have hlen : (nl.inoutBubbleList.map fun b => bubbleActual (board.bubble? b)).length
        = nl.inoutBubbles.toNat := by simp [inoutBubbleList]
    rw [hlen]
    refine ⟨hpos, fun hone => ⟨⟨.inout, Names.inoutBubbles, nl.inoutBubbles.toNat⟩, ?_, rfl, rfl⟩⟩
    have hmany : 1 < nl.inoutBubbles.toNat := by omega
    simp [ports, bubblePort, hpos, bubbleWidth, hmany]
  · obtain ⟨port, -, rfl⟩ := List.mem_map.1 hb
    cases has

end Boards

end Netlist

namespace Board

/-- A resource that owns one bubble, bound to a mapping. -/
def oneBubble (bubble : UInt32) (mapping : Mapping) : Resource where
  name := ""
  firstBubble := bubble
  pins :=
    match mapping with
    | .opened => [{ isOpen := true }]
    | .pin name inverted => [{ name := some name, inverted }]

lemma pinOf?_oneBubble (bubble b : UInt32) (mapping : Mapping) :
    (((oneBubble bubble mapping).pinOf? b).bind (oneBubble bubble mapping).pin?).map Pin.mapping
      = if bubble = b then some mapping else none := by
  have hmapping : ∃ pin, (oneBubble bubble mapping).pins = [pin] ∧ pin.mapping = mapping := by
    cases mapping <;> exact ⟨_, rfl, rfl⟩
  obtain ⟨pin, hpins, rfl⟩ := hmapping
  have hfirst : (oneBubble bubble pin.mapping).firstBubble = bubble := rfl
  rw [Resource.pinOf?, hfirst, hpins]
  by_cases hsame : bubble = b
  · subst hsame
    simp [Resource.pin?, hpins]
  · rw [if_neg hsame]
    split
    · next hle =>
        have hpos : ¬ b.toNat - bubble.toNat < 1 := by
          have hne : bubble.toNat ≠ b.toNat := fun h => hsame (UInt32.toNat_inj.1 h)
          have hle := UInt32.le_iff_toNat_le.1 hle
          omega
        simp [hpos]
    · rfl

/-- **Any assignment of bubbles is that of a board.** -/
theorem exists_bubble?_eq (catalog : UInt32 → Option Mapping) :
    ∃ board : Board, board.bubble? = catalog := by
  obtain ⟨bubbles, hall⟩ : ∃ bubbles : List UInt32, ∀ b, b ∈ bubbles :=
    ⟨(List.range UInt32.size).map UInt32.ofNat, fun b => List.mem_map.2
      ⟨b.toNat, List.mem_range.2 b.toNat_lt, UInt32.ofNat_toNat⟩⟩
  refine ⟨⟨bubbles.filterMap fun b => (catalog b).map (oneBubble b)⟩, funext fun b => ?_⟩
  have hfind : ∀ bubbles : List UInt32,
      (⟨bubbles.filterMap fun b => (catalog b).map (oneBubble b)⟩ : Board).bubble? b
        = if b ∈ bubbles then catalog b else none := by
    intro bubbles
    induction bubbles with
    | nil => rfl
    | cons bubble bubbles ih =>
        cases hbubble : catalog bubble with
        | none =>
            rw [List.filterMap_cons_none (by simp [hbubble]), ih]
            by_cases hb : b = bubble
            · simp [hb, hbubble]
            · simp [hb]
        | some mapping =>
            rw [List.filterMap_cons_some (by rw [hbubble]; rfl)]
            show List.findSome? _ (_ :: _) = _
            rw [List.findSome?_cons, pinOf?_oneBubble]
            by_cases hb : bubble = b
            · subst hb
              simp [hbubble]
            · rw [if_neg hb]
              refine ih.trans ?_
              simp [Ne.symm hb]
  rw [hfind, if_pos (hall b)]

end Board

/-! ## Multiplexers -/

/-- A placed multiplexer is an instance of its definition, and its port map matches the ports. -/
lemma Primitive.matches_instances {width : UInt32} {nl : Netlist} {name : String} {id : ℕ}
    {c : Component} {statements : List Statement} (d : Dialect)
    (h : ((multiplexer width).instances nl name id c).outcome = .ok statements) :
    ∃ bindings, statements = [.instance name (Names.instanceLabel name id) bindings]
      ∧ (PortMap.ofBindings d bindings).Matches d
          ((Multiplexer.definition name width.toNat).ports.map Port.name)
          (fun port width => ∃ index t, Multiplexer.terminalPorts[index]? = some port
            ∧ c.terminal? index = some t ∧ t.width = width) := by
  obtain ⟨bindings, hbindings, h⟩ := Attempt.outcome_bind_eq_ok_iff.1 h
  obtain rfl := Except.ok.inj h
  have hall := Multiplexer.bindings_eq_ok_iff.1 hbindings
  refine ⟨bindings, rfl, PortMap.matches_ofBindings ?_ ?_ fun b hb as has => ?_⟩
  · have hnames : Multiplexer.terminalPorts = bindings.map Prod.fst := by
      rw [← List.zipIdx_map_fst 0 Multiplexer.terminalPorts]
      refine map_eq_map_of_forall₂ (hall.imp fun p b hb => ?_)
      obtain ⟨binding, -, rfl⟩ := hb
      rfl
    rw [← hnames]
    show List.Perm _ ["Sel", "MuxIn_0", "MuxIn_1", "MuxOut"]
    decide
  · show ∀ port ∈ ["Sel", "MuxIn_0", "MuxIn_1", "MuxOut"], IsWord port
    decide
  · obtain ⟨⟨port, index⟩, hport, binding, hbinding, rfl⟩ := exists_mem_of_forall₂ hall hb
    obtain ⟨t, ht, rfl⟩ := Netlist.terminalBinding_eq_ok_iff.1 hbinding
    obtain ⟨hpos, hlen⟩ := Netlist.length_of_binding_eq_bits has
    exact ⟨hpos, fun _ => ⟨index, t, List.mem_zipIdx_iff_getElem?.1 hport, ht, hlen.symm⟩⟩

/-! ## All port maps -/

/-- **Port maps match interfaces**, in either language: that of an instance the ports of the circuit
it stands for, that of the top circuit on any board its own ports, and that of a placed multiplexer
the ports of its definition. -/
theorem PortMap.matches_ports (d : Dialect) :
    (∀ (nl : Netlist) (c : Component) (child : Netlist) bindings,
      (nl.instanceBindings c child).outcome = .ok bindings →
        (ofBindings d bindings).Matches d (child.ports.map Port.name) (c.PortWidth child.ports))
    ∧ (∀ (nl : Netlist) (board : Board), ∃ bindings,
      (nl.boardBindings board).outcome = .ok bindings
        ∧ (ofBindings d bindings).Matches d (nl.ports.map Port.name)
          (fun name width => ∃ p ∈ nl.ports, p.name = name ∧ p.width = width))
    ∧ (∀ catalog : UInt32 → Option Board.Mapping, ∃ board : Board, board.bubble? = catalog)
    ∧ ∀ (nl : Netlist) (name : String) (id : ℕ) (c : Component) (width : UInt32) statements,
      ((Primitive.multiplexer width).instances nl name id c).outcome = .ok statements →
        ∃ bindings, statements = [.instance name (Names.instanceLabel name id) bindings]
          ∧ (ofBindings d bindings).Matches d
              ((Multiplexer.definition name width.toNat).ports.map Port.name)
              (fun port width => ∃ index t, Multiplexer.terminalPorts[index]? = some port
                ∧ c.terminal? index = some t ∧ t.width = width) :=
  ⟨fun _ _ _ _ h => Netlist.matches_instanceBindings d h,
    fun _ _ => ⟨_, rfl, Netlist.matches_boardBindings d rfl⟩,
    Board.exists_bubble?_eq,
    fun _ _ _ _ _ _ h => Primitive.matches_instances d h⟩

/-- A pin of an instance whose bits lie scattered: in VHDL it has a key for each element. -/
theorem PortMap.matches_ports_scattered :
    let nl : Netlist := { nets := #[{ width := 8 }, { width := 1 }] }
    let c : Component :=
      { kind := .instance 0 false
        terminals := [
          { direction := .input, label := some "a", bits := [some ⟨0, 5⟩, some ⟨1, 0⟩] }] }
    let child : Netlist := { inputs := [{ label := "a", terminals := [.unconnected .output 2] }] }
    ∃ bindings, (nl.instanceBindings c child).outcome = .ok bindings
      ∧ (ofBindings .vhdl bindings).keys = ["a(0)", "a(1)"]
      ∧ (ofBindings .vhdl bindings).Matches .vhdl (child.ports.map Port.name)
          (c.PortWidth child.ports) := by
  intro nl c child
  refine ⟨_, rfl, by decide, (matches_ports .vhdl).1 nl c child _ rfl⟩

end Netscribe
