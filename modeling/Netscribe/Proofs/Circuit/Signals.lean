import Netscribe.Circuit.Signals
import Netscribe.Proofs.Hdl.Reading
import Netscribe.Proofs.Netlist.Range

/-!
# What carries a point

A point is carried by the signal of its root.  The signal is one that the circuit declares, and a
bit of it that exists: `signalOf_reads`.
-/

namespace Netscribe

/-- A net that is not followed has storage of its own, if it is a bus. -/
lemma Net.isRoot_of_follow?_eq_none {net : Net} (h : net.follow? = none) (hbus : net.isBus = true) :
    net.isRoot = true := by
  cases hf : net.forcedRoot
  · simpa [follow?, isRoot, hbus, hf] using h
  · simp [isRoot, hf]

lemma Net.one_lt_width {net : Net} (h : net.isBus = true) : 1 < net.width.toNat := by
  simpa [isBus, UInt32.lt_iff_toNat_lt] using h

namespace Netlist

variable {nl : Netlist} {id : UInt32} {net : Net}

/-! ## Declared signals -/

lemma mem_numberedNets_iff {id : ℕ} : (net, id) ∈ nl.numberedNets ↔ nl.nets[id]? = some net := by
  rw [numberedNets, List.mem_zipIdx_iff_getElem?, Array.getElem?_toList]

lemma mem_numberedNets (h : nl.net? id = some net) : (net, id.toNat) ∈ nl.numberedNets :=
  mem_numberedNets_iff.2 h

/-- A net that is no bus has a signal of one bit. -/
lemma net_mem_signals (h : nl.net? id = some net) (hbus : net.isBus = false) :
    (⟨Names.net id.toNat, 1⟩ : Signal) ∈ nl.signals := by
  refine List.mem_append_left _ (List.mem_map.2 ⟨(net, id.toNat), ?_, rfl⟩)
  exact List.mem_filter.2 ⟨mem_numberedNets h, by simp [hbus]⟩

/-- A bus with storage of its own has a signal of its width. -/
lemma bus_mem_signals (h : nl.net? id = some net) (hbus : net.isBus = true)
    (hroot : net.isRoot = true) :
    (⟨Names.bus id.toNat, net.width.toNat⟩ : Signal) ∈ nl.signals := by
  refine List.mem_append_right _ (List.mem_map.2 ⟨(net, id.toNat), ?_, rfl⟩)
  exact List.mem_filter.2 ⟨mem_numberedNets h, by simp [hbus, hroot]⟩

/-! ## References to them -/

/-- A point is carried by the bit of its root's net. -/
lemma signalOf_eq_some_iff {p : Point} {r : Ref} :
    nl.signalOf p = some r ↔ ∃ root net, nl.rootOf p = some root ∧ nl.net? root.net = some net
      ∧ bitOfNet net root.net.toNat root.bit.toNat = r := by
  simp [signalOf, Option.bind_eq_some_iff]

/-- **What carries a point is one bit of a declared signal**, in either language. -/
theorem signalOf_reads {p : Point} {r : Ref} (h : nl.signalOf p = some r) (d : Dialect) :
    Reads nl.signals d (r.text d) [r.wire] := by
  obtain ⟨root, net, hroot, hnet, rfl⟩ := signalOf_eq_some_iff.1 h
  obtain ⟨net', hnet', hbit, hfollow⟩ := rootOf_isStorage hroot
  obtain rfl : net = net' := by simpa [hnet] using hnet'
  cases hbus : net.isBus
  · simpa [bitOfNet, hbus, Ref.text, Ref.wire, wires] using Reads.whole (net_mem_signals hnet hbus)
  · simp only [bitOfNet, hbus, if_true, Ref.wire]
    exact reads_bit (bus_mem_signals hnet hbus (Net.isRoot_of_follow?_eq_none hfollow hbus))
      (Net.one_lt_width hbus) (UInt32.lt_iff_toNat_lt.1 hbit) d

end Netlist

end Netscribe
