import Netscribe.Primitive.Registry
import Netscribe.Proofs.Circuit.Naming
import Netscribe.Proofs.Circuit.Parts
import Netscribe.Proofs.Hdl.Formula

/-!
# What gates compute

A placed gate writes one line for each bit of its output that has a signal, and the line computes the
gate from the signals that its inputs have at the same bit.  An input without a signal there counts as
false and is reported.

* `Netlist.BitSignal` — the signal of one bit of a terminal, or that there is none.
* `Gate.function` — what each gate computes.
* `GateLine`, `GateLine.Computes` — a line, taken apart, and that it computes a gate at a bit.
* `Gate.Inlines` — what a placed gate writes and reports.
* **`Gate.inlined_computes`** — a placed gate fails for want of terminals or computes its gate.
-/

namespace Netscribe

/-! ## Signals of bits -/

/-- **The signal of one bit of a terminal.**  There is none where the terminal does not have the bit,
where the bit is not connected, and where what it is connected to has no root. -/
inductive Netlist.BitSignal (nl : Netlist) (t : Terminal) (bit : ℕ) : Option Ref → Prop
  | signal {p r} : t.bits[bit]? = some (some p) → nl.signalOf p = some r → BitSignal nl t bit (some r)
  | missing : t.width ≤ bit → BitSignal nl t bit none
  | unconnected : t.bits[bit]? = some none → BitSignal nl t bit none
  | unresolved {p} : t.bits[bit]? = some (some p) → nl.rootOf p = none → BitSignal nl t bit none

/-! ## Functions of gates -/

/-- **What a gate computes.**  An exclusive or is true if an odd number of its inputs is; an inverter
and a buffer look at their only input. -/
def Gate.function : Gate → List Bool → Bool
  | .and, inputs => inputs.all id
  | .or, inputs => inputs.any id
  | .xor, inputs => inputs.count true % 2 == 1
  | .nand, inputs => !inputs.all id
  | .nor, inputs => !inputs.any id
  | .xnor, inputs => inputs.count true % 2 == 0
  | .not, inputs => !inputs.headD false
  | .buffer, inputs => inputs.headD false

/-! ## Lines of gates -/

/-- **A line of a gate, taken apart**: the signal that is assigned to, the signals of the inputs, and
the expression as text and as it reads. -/
structure GateLine where
  target : Ref
  operands : List (Option Ref)
  source : String
  formula : Formula

/-- The line as it is written. -/
def GateLine.text (d : Dialect) (l : GateLine) : String :=
  indent ++ d.assignLead ++ alignName (l.target.text d) ++ d.assignOperator ++ l.source ++ ";"

/-- **A line computes one bit of a gate.** -/
structure GateLine.Computes (l : GateLine) (g : Gate) (nl : Netlist) (d : Dialect) (output : Terminal)
    (inputs : List Terminal) (bit : ℕ) : Prop where
  /-- It assigns to the signal of the output bit. -/
  target : nl.BitSignal output bit (some l.target)
  /-- It has one operand for each input, the signal of the same bit. -/
  operands : List.Forall₂ (fun t o => nl.BitSignal t bit o) inputs l.operands
  reads : d.formula? l.source = some l.formula
  negated : l.formula.negated = true ↔ g ∈ [Gate.nand, Gate.nor, Gate.xnor, Gate.not]
  operator : ∀ x ∈ l.formula.rest, x.1 = g.operator
  /-- The expression names these signals, and has a zero where there is none. -/
  wires : l.formula.operands = l.operands.map (Option.map Ref.wire)
  value : ∀ bits, l.formula.value bits = g.function (l.formula.operands.map (Option.any bits))

/-- **What a placed gate writes and reports.** -/
structure Gate.Inlines (g : Gate) (nl : Netlist) (d : Dialect) (label : String) (output : Terminal)
    (inputs : List Terminal) (placed : Attempt (List Assignment)) (bits : List ℕ)
    (missing : List (ℕ × ℕ)) : Prop where
  /-- The bits of the output that have a signal, in ascending order. -/
  ascending : bits.Pairwise (· < ·)
  mem_bits : ∀ bit, bit ∈ bits ↔ ∃ r, nl.BitSignal output bit (some r)
  /-- One line for each of them. -/
  lines : ∃ assignments lines, placed.outcome = .ok assignments
    ∧ assignments.map (Assignment.line d) = lines.map (GateLine.text d)
    ∧ List.Forall₂ (fun bit l => l.Computes g nl d output inputs bit) bits lines
  /-- Each of them with each input that has no signal there, bit by bit and input by input. -/
  missing_ascending : missing.Pairwise fun x y => x.1 < y.1 ∨ x.1 = y.1 ∧ x.2 < y.2
  mem_missing : ∀ bit k, (bit, k) ∈ missing ↔
    bit ∈ bits ∧ ∃ t, inputs[k]? = some t ∧ nl.BitSignal t bit none
  /-- One warning for each of these. -/
  warnings : placed.warnings = missing.map fun (bit, k) =>
    let port := label ++ ".input" ++ toString (k + 1)
    if output.width = 1 then .unconnectedInput port else .unconnectedBit port bit
  code : ∀ w ∈ placed.warnings, w.diagnostic.code = ⟨.warning, 301⟩

/-! ## Operands -/

lemma isSignalName_of_head? {name : String} (hword : IsWord name)
    (hhead : name.toList.head? = some 's') : isSignalName name = true := by
  have hreserved : ∀ w ∈ reservedWords, w.toList.head? ≠ some 's' := by decide
  obtain ⟨cs, hcs⟩ := List.head?_eq_some_iff.1 hhead
  exact isSignalName_iff.2
    ⟨hword, ⟨'s', cs, hcs, by decide⟩, fun hmem => hreserved name hmem hhead⟩

namespace Netlist

variable {nl : Netlist} {t : Terminal} {bit : ℕ}

lemma isSignalName_bitOfNet (net : Net) (id bit : ℕ) :
    isSignalName (bitOfNet net id bit).name = true := by
  refine isSignalName_of_head? (isWord_bitOfNet net id bit) ?_
  rw [bitOfNet]
  split <;> simp [Ref.name, Names.bus, Names.net]

/-- What carries a point is one bit of a signal with a proper name. -/
lemma isBit_of_signalOf {p : Point} {r : Ref} (h : nl.signalOf p = some r) :
    (Operand.ref r).IsBit := by
  obtain ⟨root, net, -, -, rfl⟩ := signalOf_eq_some_iff.1 h
  refine ⟨?_, isSignalName_bitOfNet net _ _⟩
  rw [bitOfNet]
  split <;> trivial

lemma bitSignal_iff {o : Option Ref} : nl.BitSignal t bit o ↔ Gate.signalBit nl t bit = o := by
  rw [Gate.signalBit, signalAt, Terminal.point?]
  constructor
  · intro h
    cases h with
    | signal hp hr => simpa [hp] using hr
    | missing hwidth => simp [List.getElem?_eq_none hwidth]
    | unconnected hbit => simp [hbit]
    | unresolved hp hroot => simpa [hp] using signalOf_eq_none_iff.2 hroot
  · rintro rfl
    cases hbit : t.bits[bit]? with
    | none => exact .missing (List.getElem?_eq_none_iff.1 hbit)
    | some connection =>
        cases connection with
        | none => exact .unconnected hbit
        | some p =>
            cases hr : nl.signalOf p with
            | none => simpa [hr] using BitSignal.unresolved hbit (signalOf_eq_none_iff.1 hr)
            | some r => simpa [hr] using BitSignal.signal hbit hr

end Netlist

namespace Gate

variable {g : Gate} {nl : Netlist} {bit : ℕ}

lemma isBit_operand (nl : Netlist) (bit : ℕ) (t : Terminal) : (operand nl bit t).IsBit := by
  rw [operand]
  split
  · next r hr =>
      obtain ⟨p, -, hp⟩ := Option.bind_eq_some_iff.1 hr
      exact Netlist.isBit_of_signalOf hp
  · rfl

lemma wire_operand (nl : Netlist) (bit : ℕ) (t : Terminal) :
    (operand nl bit t).wire = (signalBit nl t bit).map Ref.wire := by
  rw [operand]
  cases signalBit nl t bit <;> rfl

end Gate

/-! ## Values -/

/-- What an operator makes of any number of values. -/
def LogicOp.total : LogicOp → List Bool → Bool
  | .and, values => values.all id
  | .or, values => values.any id
  | .xor, values => values.count true % 2 == 1

lemma LogicOp.foldl_apply (op : LogicOp) (b : Bool) (bs : List Bool) :
    bs.foldl op.apply b = op.total (b :: bs) := by
  induction bs generalizing b with
  | nil => cases op <;> cases b <;> rfl
  | cons x bs ih =>
      rw [List.foldl_cons, ih]
      cases op with
      | and => simp [apply, total, Bool.and_assoc]
      | or => simp [apply, total, Bool.or_assoc]
      | xor =>
          -- two true values leave the parity as it is
          cases b <;> cases x <;> simp [apply, total]
          omega

/-- A formula with one operator is that operator of all its operands. -/
lemma Formula.value_eq_total (f : Formula) (op : LogicOp) (h : ∀ x ∈ f.rest, x.1 = op)
    (bits : Wire → Bool) :
    f.value bits = (f.negated ^^ op.total (f.operands.map (Option.any bits))) := by
  have hrest : f.rest.foldl (fun b x => x.1.apply b (x.2.any bits)) (f.first.any bits)
      = (f.rest.map fun x => x.2.any bits).foldl op.apply (f.first.any bits) := by
    rw [List.foldl_map]
    exact List.foldl_ext _ _ _ fun b x hx => by rw [h x hx]
  rw [Formula.value, hrest, LogicOp.foldl_apply, Formula.operands, List.map_cons, List.map_map]
  cases f.negated <;> simp [Function.comp_def]

/-- The function of a gate is its operator, of one operand if it has one only. -/
lemma Gate.function_eq_total (g : Gate) (b : Bool) (bs : List Bool)
    (h : g.isUnary = true → bs = []) :
    g.function (b :: bs) = (g.negated ^^ g.operator.total (b :: bs)) := by
  cases g with
  | and | or | xor | nand | nor => simp [function, negated, operator, LogicOp.total]
  | xnor =>
      simp only [function, negated, operator, LogicOp.total, Bool.true_xor]
      rcases Nat.mod_two_eq_zero_or_one ((b :: bs).count true) with hcount | hcount <;>
        rw [hcount] <;> rfl
  | not | buffer =>
      obtain rfl := h rfl
      simp [function, negated, operator, LogicOp.total]

namespace Gate

variable {g : Gate} {nl : Netlist} {d : Dialect} {output : Terminal} {inputs : List Terminal}
  {label : String} {bit : ℕ}

/-! ## Lines -/

lemma negated_iff : g.negated = true ↔ g ∈ [nand, nor, xnor, not] := by
  cases g <;> decide

/-- The line of a gate that assigns to a signal at a bit, where `t` is the first of the inputs. -/
def bitLine (g : Gate) (nl : Netlist) (d : Dialect) (t : Terminal) (ts : List Terminal) (bit : ℕ)
    (signal : Ref) : GateLine where
  target := signal
  operands := (t :: ts).map fun t => signalBit nl t bit
  source := Expr.logicText d g.operator g.negated ((t :: ts).map (operand nl bit))
  formula := {
    negated := g.negated
    first := (signalBit nl t bit).map Ref.wire
    rest := ts.map fun t => (g.operator, (signalBit nl t bit).map Ref.wire) }

lemma formula?_bitLine (t : Terminal) (ts : List Terminal) (signal : Ref) :
    d.formula? (g.bitLine nl d t ts bit signal).source
      = some (g.bitLine nl d t ts bit signal).formula := by
  have hbits : ∀ x ∈ operand nl bit t :: ts.map (operand nl bit), x.IsBit := by
    rw [← List.map_cons, List.forall_mem_map]
    exact fun t _ => isBit_operand nl bit t
  refine (Dialect.formula?_logicText g.operator g.negated hbits).trans ?_
  simp [bitLine, wire_operand]

/-- **What a gate assigns at a bit is a line that computes it.** -/
theorem bitLine_computes {t : Terminal} {ts : List Terminal} {signal : Ref}
    (hsignal : signalBit nl output bit = some signal) (hunary : g.isUnary = true → ts = []) :
    (g.bitLine nl d t ts bit signal).Computes g nl d output (t :: ts) bit where
  target := Netlist.bitSignal_iff.2 hsignal
  operands := List.forall₂_map_right_iff.2
    (List.forall₂_same.2 fun _ _ => Netlist.bitSignal_iff.2 rfl)
  reads := formula?_bitLine t ts signal
  negated := negated_iff
  operator := by simp [bitLine]
  wires := by simp [bitLine, Formula.operands]
  value := by
    intro bits
    rw [Formula.value_eq_total _ g.operator (by simp [bitLine]), Formula.operands, List.map_cons,
      function_eq_total]
    · rfl
    · intro h
      simp [bitLine, hunary h]

/-! ## Warnings -/

/-- The positions of the inputs that have no signal at a bit. -/
def missingInputs (nl : Netlist) (inputs : List Terminal) (bit : ℕ) : List ℕ :=
  (inputs.zipIdx.filter fun (t, _) => (signalBit nl t bit).isNone).map Prod.snd

lemma mem_missingInputs {k : ℕ} :
    k ∈ missingInputs nl inputs bit ↔ ∃ t, inputs[k]? = some t ∧ nl.BitSignal t bit none := by
  simp [missingInputs, List.mem_zipIdx_iff_getElem?, Netlist.bitSignal_iff]

lemma missingInputs_pairwise (nl : Netlist) (inputs : List Terminal) (bit : ℕ) :
    (missingInputs nl inputs bit).Pairwise (· < ·) := by
  have hzip : (inputs.zipIdx.map Prod.snd).Pairwise (· < ·) := by
    rw [List.zipIdx_map_snd]
    exact List.pairwise_lt_range'
  exact hzip.sublist (List.filter_sublist.map _)

lemma bitWarnings_eq (label : String) (single : Bool) :
    bitWarnings nl label single inputs bit = (missingInputs nl inputs bit).map fun k =>
      if single then .unconnectedInput (inputName label k)
      else .unconnectedBit (inputName label k) bit := by
  rw [bitWarnings, missingInputs, List.map_map]
  rfl

/-! ## Placed gates -/

lemma mem_outputBits {signal : Ref} :
    (bit, signal) ∈ outputBits nl output ↔ signalBit nl output bit = some signal := by
  simp only [outputBits, List.mem_filterMap, List.mem_range, Option.map_eq_some_iff, Prod.mk.injEq]
  constructor
  · rintro ⟨i, -, r, hr, rfl, rfl⟩
    exact hr
  · intro hr
    refine ⟨bit, ?_, signal, hr, rfl, rfl⟩
    -- a bit beyond the width is not connected
    by_contra hwidth
    have hnone : nl.BitSignal output bit none := .missing (Nat.not_lt.1 hwidth)
    cases hr.symm.trans (Netlist.bitSignal_iff.1 hnone)

lemma outputBits_pairwise (nl : Netlist) (output : Terminal) :
    (outputBits nl output).Pairwise fun x y => x.1 < y.1 := by
  refine List.Pairwise.filterMap _ ?_ List.pairwise_lt_range
  intro i j hij x hx y hy
  obtain ⟨r, -, rfl⟩ := Option.map_eq_some_iff.1 hx
  obtain ⟨r', -, rfl⟩ := Option.map_eq_some_iff.1 hy
  exact hij

/-- A gate with all its terminals has an output and an input, and no other one if it is an inverter or
a buffer. -/
lemma exists_terminals {c : Component} (h : g.required ≤ c.terminalCount) :
    ∃ output rest t ts, c.terminals = output :: rest ∧ g.inputs c = t :: ts
      ∧ (g.isUnary = true → ts = []) := by
  obtain ⟨output, rest, hterminals, -⟩ := (g.few_or_terminals c).resolve_left (Nat.not_lt.2 h)
  rw [Component.terminalCount, hterminals, required] at h
  cases rest with
  | nil => cases hunary : g.isUnary <;> simp [hunary] at h
  | cons t ts =>
      cases hunary : g.isUnary
      · exact ⟨output, t :: ts, t, ts, hterminals, by simp [inputs, hterminals, hunary], by simp⟩
      · exact ⟨output, t :: ts, t, [], hterminals, by simp [inputs, hterminals, hunary], fun _ => rfl⟩

/-- The bits of the output that have a signal, each with the inputs that have none there. -/
def missing (nl : Netlist) (output : Terminal) (inputs : List Terminal) : List (ℕ × ℕ) :=
  (outputBits nl output).flatMap fun x => (missingInputs nl inputs x.1).map (x.1, ·)

lemma mem_missing {k : ℕ} :
    (bit, k) ∈ missing nl output inputs ↔
      (∃ r, nl.BitSignal output bit (some r))
        ∧ ∃ t, inputs[k]? = some t ∧ nl.BitSignal t bit none := by
  simp only [missing, List.mem_flatMap, List.mem_map, mem_missingInputs, Netlist.bitSignal_iff,
    Prod.exists, mem_outputBits, Prod.mk.injEq]
  constructor
  · rintro ⟨i, r, hr, j, ht, rfl, rfl⟩
    exact ⟨⟨r, hr⟩, ht⟩
  · rintro ⟨⟨r, hr⟩, ht⟩
    exact ⟨bit, r, hr, k, ht, rfl, rfl⟩

lemma missing_pairwise (nl : Netlist) (output : Terminal) (inputs : List Terminal) :
    (missing nl output inputs).Pairwise fun x y => x.1 < y.1 ∨ x.1 = y.1 ∧ x.2 < y.2 := by
  refine List.pairwise_flatMap.2 ⟨fun x _ => ?_, (outputBits_pairwise nl output).imp ?_⟩
  · exact List.pairwise_map.2 ((missingInputs_pairwise nl inputs x.1).imp fun hlt => .inr ⟨rfl, hlt⟩)
  · intro x y hlt p hp q hq
    obtain ⟨k, -, rfl⟩ := List.mem_map.1 hp
    obtain ⟨k', -, rfl⟩ := List.mem_map.1 hq
    exact .inl hlt

/-- **With all its terminals, a gate writes and reports what it should.** -/
theorem inlines_assignments {c : Component} {t : Terminal} {rest ts : List Terminal}
    (h : g.required ≤ c.terminalCount) (hterminals : c.terminals = output :: rest)
    (hinputs : g.inputs c = t :: ts) (hunary : g.isUnary = true → ts = []) :
    g.Inlines nl d label output (t :: ts) (g.assignments nl label c)
      ((outputBits nl output).map Prod.fst) (missing nl output (t :: ts)) := by
  have hbits : ∀ i, i ∈ (outputBits nl output).map Prod.fst
      ↔ ∃ r, nl.BitSignal output i (some r) := by
    intro i
    simp [Netlist.bitSignal_iff, mem_outputBits]
  have hwarnings : (g.assignments nl label c).warnings = (missing nl output (t :: ts)).map
      fun (i, k) => if output.width = 1 then .unconnectedInput (inputName label k)
        else .unconnectedBit (inputName label k) i := by
    rw [assignments_of_terminals hterminals h, hinputs, missing, List.map_flatMap]
    simp only [bitWarnings_eq, List.map_map, beq_iff_eq]
    rfl
  refine ⟨List.pairwise_map.2 (outputBits_pairwise nl output), hbits, ?_,
    missing_pairwise nl output (t :: ts), fun i k => by rw [mem_missing, hbits], hwarnings, ?_⟩
  · refine ⟨_, (outputBits nl output).map fun x => g.bitLine nl d t ts x.1 x.2,
      by rw [assignments_of_terminals hterminals h], ?_, ?_⟩
    · rw [hinputs, List.map_map, List.map_map]
      rfl
    · rw [List.forall₂_map_left_iff, List.forall₂_map_right_iff, List.forall₂_same]
      exact fun x hx => bitLine_computes (mem_outputBits.1 hx) hunary
  · rw [hwarnings, List.forall_mem_map]
    intro x _
    dsimp only
    split <;> rfl

lemma isUnary_iff : g.isUnary = true ↔ g = .not ∨ g = .buffer := by
  cases g <;> decide

/-- **A placed gate fails for want of terminals, or computes its gate bit by bit.**  An inverter and a
buffer need two terminals and read the second one only; the others need three and read all but the
first. -/
theorem inlined_computes (g : Gate) (nl : Netlist) (d : Dialect) (name : String) (id : ℕ)
    (c : Component) :
    let placed := (Primitive.gate g).inlined nl name id c
    let required := if g = .not ∨ g = .buffer then 2 else 3
    (c.terminalCount < required →
      placed = .fail (.missingTerminal c.label (required - 1) c.terminalCount))
    ∧ (required ≤ c.terminalCount → ∃ output inputs bits missing,
        c.terminals[0]? = some output
        ∧ inputs = (if g = .not ∨ g = .buffer then (c.terminals.drop 1).take 1
            else c.terminals.drop 1)
        ∧ g.Inlines nl d (Names.instanceLabel name id) output inputs placed bits missing) := by
  intro placed required
  have hrequired : required = g.required := by simp only [required, Gate.required, isUnary_iff]
  have hinputs : (if g = .not ∨ g = .buffer then (c.terminals.drop 1).take 1
      else c.terminals.drop 1) = g.inputs c := by
    simp only [inputs, isUnary_iff]
  rw [hrequired, hinputs]
  refine ⟨assignments_of_few, fun h => ?_⟩
  obtain ⟨output, rest, t, ts, hterminals, hts, hunary⟩ := exists_terminals h
  rw [hts]
  exact ⟨output, t :: ts, _, _, by rw [hterminals]; rfl, rfl,
    inlines_assignments h hterminals hts hunary⟩

/-- A gate with an output bit that nothing reads, and an input that is narrower than the output. -/
theorem inlined_computes_nor :
    let nl : Netlist := { nets := #[{ width := 2 }, { width := 3 }, { width := 1 }] }
    let c : Component :=
      { terminals := [{ direction := .output, bits := [some ⟨1, 0⟩, none, some ⟨1, 2⟩] },
          { direction := .input, bits := [some ⟨0, 0⟩, none, some ⟨0, 1⟩] },
          { direction := .input, bits := [some ⟨2, 0⟩] }] }
    let placed := (Primitive.gate .nor).inlined nl "NOR_GATE" 1 c
    3 ≤ c.terminalCount
    ∧ placed = ⟨[.unconnectedBit "NOR_GATE_1.input2" 2],
        .ok [⟨.bit "s_logisimBus1" 0, .logic .or true
            [.ref (.bit "s_logisimBus0" 0), .ref (.whole "s_logisimNet2")]⟩,
          ⟨.bit "s_logisimBus1" 2, .logic .or true [.ref (.bit "s_logisimBus0" 1), .zeros 1]⟩]⟩
    ∧ ∃ output bits missing, c.terminals[0]? = some output
        ∧ nor.Inlines nl .vhdl "NOR_GATE_1" output (c.terminals.drop 1) placed bits missing := by
  intro nl c placed
  obtain ⟨output, inputs, bits, missing, houtput, rfl, h⟩ :=
    (inlined_computes .nor nl .vhdl "NOR_GATE" 1 c).2 (by decide)
  exact ⟨by decide, rfl, output, bits, missing, houtput, h⟩

end Gate

end Netscribe
