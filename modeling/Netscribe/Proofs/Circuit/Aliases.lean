import Netscribe.Proofs.Circuit.Naming
import Netscribe.Proofs.Design.WellFormed
import Netscribe.Proofs.Netlist.Walk

/-!
# Views and the nets that they look into

Bit `i` of a view stands for bit `offset + i` of its parent.  A bus that is a view has no storage, so
the two have the same root and are carried by the same signal, however views are nested.  A view of
one bit is not followed: it is a wire of its own, and what carries it never carries a bit of another
net.

* `Netlist.isBus_of_rootWithin` — what is followed ends on a bus.
* **`Design.aliases_iff`** — which views of an accepted design are carried by their parents' signals.
-/

namespace Netscribe

namespace Netlist

variable {nl : Netlist} {p q r : Point}

/-! ## Roots on buses and on wires -/

/-- **What is followed ends on a bus**: no parent of a bus is a single wire. -/
lemma isBus_of_rootWithin (hnets : ∀ net ∈ nl.nets, nl.SoundNet net) {steps : ℕ} {net : Net}
    (hnet : nl.net? p.net = some net) (hbus : net.isBus = true)
    (h : nl.rootWithin steps p = some r) : (nl.net? r.net).any Net.isBus = true := by
  induction steps generalizing p net with
  | zero => cases h
  | succ steps ih =>
      rcases rootWithin_succ_eq_some_iff.1 h with ⟨-, rfl⟩ | ⟨q, hstep, hrest⟩
      · simpa [hnet] using hbus
      · obtain ⟨net', view, hnet', hview, hq⟩ := views_of_step? hstep
        obtain rfl := Option.some.inj (hnet.symm.trans hnet')
        obtain ⟨hparent, hwide, -⟩ := follow?_eq_some_iff.1 hview
        obtain ⟨-, parent, hparentNet, -, hparentWide⟩ :=
          (hnets net (Array.mem_of_getElem? hnet)).parent_hasBit hparent
            (i := 0) (UInt32.lt_trans (by decide) hwide)
        exact ih (hq ▸ hparentNet) (decide_eq_true (hparentWide hwide)) hrest

/-! ## Signals -/

lemma signalOf_congr (h : nl.rootOf p = nl.rootOf q) : nl.signalOf p = nl.signalOf q := by
  rw [signalOf, signalOf, h]

/-- A single wire carries its bit, whether or not it is a view. -/
lemma rootOf_wire {net : Net} (hnet : nl.net? p.net = some net) (hbit : p.bit < net.width)
    (hbus : net.isBus = false) : nl.rootOf p = some p :=
  rootOf_of_root (by simp [step?, hnet, hbit, Net.follow?, hbus])

lemma signalOf_wire {net : Net} (hnet : nl.net? p.net = some net) (hbit : p.bit < net.width)
    (hbus : net.isBus = false) : nl.signalOf p = some (.whole (Names.net p.net.toNat)) :=
  signalOf_eq_some_iff.2 ⟨p, net, rootOf_wire hnet hbit hbus, hnet, by simp [bitOfNet, hbus]⟩

/-- A bit whose root is on a single wire is on that wire. -/
lemma eq_of_rootOf_wire (hnets : ∀ net ∈ nl.nets, nl.SoundNet net) (hp : nl.HasBit p)
    (h : nl.rootOf p = some r) {net : Net} (hnet : nl.net? r.net = some net)
    (hbus : net.isBus = false) : p.net = r.net := by
  obtain ⟨net', hnet', hbit⟩ := hp
  cases hbus' : net'.isBus with
  | true => simpa [hnet, hbus] using isBus_of_rootWithin hnets hnet' hbus' h
  | false => rw [Option.some.inj ((rootOf_wire hnet' hbit hbus').symm.trans h)]

end Netlist

namespace Design

variable {d : Design}

/-- **The views that are carried by their parents' signals are the buses.**  In an accepted design
bit `i` of a view stands for a bit of the parent, that many bits on from where the view starts.  The
two bits have the same signal, in either language and however views are nested, if the view is a
bus.  A net of one bit, be it a view or not, is a declared wire of its own, so that a view of one bit
does not carry the bit of another net that it stands for. -/
theorem aliases_iff (hvalid : d.validate = .ok ()) {c : Circuit} (hc : c ∈ d.circuits) {v : UInt32}
    {net : Net} {view : View} (hnet : c.netlist.net? v = some net) (hparent : net.parent = some view)
    (hforced : 1 < net.width → net.forcedRoot = false) {i : UInt32} (hbit : i < net.width)
    (dialect : Dialect) :
    let nl := c.netlist
    (nl.HasBit ⟨view.net, view.offset + i⟩
      ∧ (view.offset + i).toNat = view.offset.toNat + i.toNat)
    ∧ ((nl.signalOf ⟨v, i⟩).map (Ref.text dialect)
        = (nl.signalOf ⟨view.net, view.offset + i⟩).map (Ref.text dialect)
      ↔ 1 < net.width ∨ view.net = v)
    ∧ ∀ (w : UInt32) (wire : Net), nl.net? w = some wire → wire.width = 1 → ∀ j < wire.width,
      nl.signalOf ⟨w, j⟩ = some (.whole (Names.net w.toNat))
        ∧ (⟨Names.net w.toNat, 1⟩ : Signal) ∈ nl.signals := by
  intro nl
  have hnets := ((validate_eq_ok_iff.1 hvalid).circuits c hc).nets
  have hsound := hnets net (Array.mem_of_getElem? hnet)
  obtain ⟨hsum, parent, hparentNet, hlt, -⟩ := hsound.parent_hasBit hparent hbit
  have hp : nl.HasBit ⟨v, i⟩ := ⟨net, hnet, hbit⟩
  have hq : nl.HasBit ⟨view.net, i + view.offset⟩ := ⟨parent, hparentNet, hlt⟩
  rw [UInt32.add_comm view.offset i]
  refine ⟨⟨hq, hsum.trans (Nat.add_comm _ _)⟩, ?_, fun w wire hwire hone j hj => ?_⟩
  · by_cases hwide : 1 < net.width
    · have hview := Netlist.follow?_eq_some_iff.2 ⟨hparent, hwide, hforced hwide⟩
      have hstep := Netlist.step?_of_follow? hsound (p := ⟨v, i⟩) hnet hbit hview
      rw [Netlist.signalOf_congr (Netlist.rootOf_of_step hstep)]
      exact iff_of_true rfl (.inl hwide)
    · have hbus : net.isBus = false := decide_eq_false hwide
      have hwire := Netlist.signalOf_wire (p := ⟨v, i⟩) hnet hbit hbus
      rw [or_iff_right hwide]
      constructor
      · intro h
        -- the wire is the root of both bits, and no other net has its root there
        obtain ⟨s, hs, htext⟩ := Option.map_eq_some_iff.1 (h.symm.trans (congrArg _ hwire))
        have hroot := (Netlist.text_signalOf_inj hs hwire dialect).1 htext
        rw [Netlist.rootOf_wire (p := ⟨v, i⟩) hnet hbit hbus] at hroot
        exact Netlist.eq_of_rootOf_wire hnets hq hroot hnet hbus
      · rintro rfl
        -- a wire that is a view of itself starts at its only bit
        have hself : parent = net := Option.some.inj (hparentNet.symm.trans hnet)
        rw [hself] at hlt
        rw [hwire, Netlist.signalOf_wire (p := ⟨view.net, i + view.offset⟩) hnet hlt hbus]
  · have hbus : wire.isBus = false := by simp [Net.isBus, hone]
    exact ⟨Netlist.signalOf_wire (p := ⟨w, j⟩) hwire hj hbus, Netlist.net_mem_signals hwire hbus⟩

/-- A bus, a view of a part of it and a view of a part of that one. -/
def nestedViews : Design where
  circuits := #[
    { name := "main", netlist := {
        nets := #[{ width := 8 }, { width := 5, parent := some ⟨0, 2⟩ },
          { width := 3, parent := some ⟨1, 1⟩ }] } }]

/-- Bit 2 of the inner view is bit 3 of the outer one and is carried by bit 5 of the bus. -/
theorem aliases_iff_nested :
    let nl := nestedViews.circuits[0].netlist
    nestedViews.validate = .ok () ∧ nl.net? 2 = some ⟨3, some ⟨1, 1⟩, false, [], []⟩
    ∧ (2 : UInt32) < 3
    ∧ (nl.signalOf ⟨2, 2⟩).map (Ref.text .verilog) = (nl.signalOf ⟨1, 3⟩).map (Ref.text .verilog)
    ∧ nl.signalOf ⟨2, 2⟩ = some (.bit "s_logisimBus0" 5) := by
  intro nl
  have hvalid : nestedViews.validate = .ok () := by decide
  have hc : nestedViews.circuits[0] ∈ nestedViews.circuits := Array.getElem_mem _
  have halias := aliases_iff hvalid hc (v := 2) rfl rfl (fun _ => rfl) (i := 2) (by decide)
    .verilog
  exact ⟨hvalid, rfl, by decide, halias.2.1.2 (.inl (by decide)), by decide⟩

/-- A bus, and a view of one bit of it. -/
def bitView : Design where
  circuits := #[
    { name := "main", netlist := {
        nets := #[{ width := 8 }, { width := 1, parent := some ⟨0, 3⟩ }] } }]

/-- The view of one bit is not carried by the bit of the bus that it stands for, but by a wire of its
own. -/
theorem bitView_ne_parent :
    let nl := bitView.circuits[0].netlist
    bitView.validate = .ok ()
    ∧ nl.net? 1 = some ⟨1, some ⟨0, 3⟩, false, [], []⟩
    ∧ (nl.signalOf ⟨1, 0⟩).map (Ref.text .vhdl) = some "s_logisimNet1"
    ∧ (nl.signalOf ⟨0, 3 + 0⟩).map (Ref.text .vhdl) = some "s_logisimBus0(3)"
    ∧ (nl.signalOf ⟨1, 0⟩).map (Ref.text .vhdl) ≠ (nl.signalOf ⟨0, 3 + 0⟩).map (Ref.text .vhdl) := by
  decide

end Design

end Netscribe
