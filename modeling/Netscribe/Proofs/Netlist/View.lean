import Mathlib.Logic.Relation
import Netscribe.Proofs.Data.Lists
import Netscribe.Proofs.Netlist.Root
import Netscribe.Proofs.Netlist.Sound

/-!
# Views that end

A bit of a view is followed to the net that it is a view of, and so on until a net has storage of
its own.  In a netlist whose references are in order, nothing keeps a bit from its root but a view
that leads back to itself, directly or through others.

* `Netlist.Views`, `Netlist.Circular` — the net that is followed next, and a net from which this
  never ends.
* `Netlist.not_circular_of_rootWithin` — a bit with a root is on no such net, in any netlist.
* `Netlist.step?_of_hasBit` — a bit of a net is a root or is followed to a bit of another.
* **`Netlist.isSome_rootOf_iff`** — which bits have a root.
-/

namespace Netscribe.Netlist

open Relation

variable {nl : Netlist} {a b : UInt32} {p q r : Point}

/-- A net is followed to another: it is a view of it and has no storage of its own. -/
def Views (nl : Netlist) (a b : UInt32) : Prop :=
  ∃ net view, nl.net? a = some net ∧ net.follow? = some view ∧ view.net = b

/-- **A net from which there is no end**: it comes to a net that leads back to itself. -/
def Circular (nl : Netlist) (a : UInt32) : Prop :=
  ∃ b, ReflTransGen nl.Views a b ∧ TransGen nl.Views b b

/-! ## Following views -/

lemma Views.unique {c : UInt32} (h : nl.Views a b) (h' : nl.Views a c) : b = c := by
  obtain ⟨net, view, hnet, hview, rfl⟩ := h
  obtain ⟨net', view', hnet', hview', rfl⟩ := h'
  obtain rfl := Option.some.inj (hnet.symm.trans hnet')
  obtain rfl := Option.some.inj (hview.symm.trans hview')
  rfl

lemma Circular.of_views (h : nl.Circular b) (hab : nl.Views a b) : nl.Circular a := by
  obtain ⟨c, hbc, hc⟩ := h
  exact ⟨c, hbc.head hab, hc⟩

lemma Circular.of_transGen (h : TransGen nl.Views a a) : nl.Circular a :=
  ⟨a, .refl, h⟩

/-- A net without end is followed to another one without end. -/
lemma Circular.next (h : nl.Circular a) : ∃ b, nl.Views a b ∧ nl.Circular b := by
  obtain ⟨c, hac, hc⟩ := h
  rcases hac.cases_head with rfl | ⟨b, hab, hbc⟩
  · obtain ⟨b, hab, hba⟩ := TransGen.head'_iff.1 hc
    exact ⟨b, hab, a, hba, hc⟩
  · exact ⟨b, hab, c, hbc, hc⟩

lemma not_circular_of_isStorage (h : nl.IsStorage p) : ¬ nl.Circular p.net := by
  intro hcircular
  obtain ⟨net, hnet, -, hnone⟩ := h
  obtain ⟨-, ⟨net', view, hnet', hview, -⟩, -⟩ := hcircular.next
  obtain rfl := Option.some.inj (hnet.symm.trans hnet')
  cases hnone.symm.trans hview

lemma views_of_step? (h : nl.step? p = some (.view q)) : nl.Views p.net q.net := by
  obtain ⟨net, view, hnet, -, hview, hq, -⟩ := step?_eq_view_iff.1 h
  exact ⟨net, view, hnet, hview, hq.symm⟩

/-- **A bit with a root is on no net without end**, whatever the netlist. -/
theorem not_circular_of_rootWithin {steps : ℕ} (h : nl.rootWithin steps p = some r) :
    ¬ nl.Circular p.net := by
  induction steps generalizing p with
  | zero => cases h
  | succ steps ih =>
      rcases rootWithin_succ_eq_some_iff.1 h with ⟨hroot, rfl⟩ | ⟨q, hview, hq⟩
      · exact not_circular_of_isStorage (step?_eq_root_iff.1 hroot)
      · intro hcircular
        obtain ⟨b, hb, hcircular⟩ := hcircular.next
        obtain rfl := hb.unique (views_of_step? hview)
        exact ih hq hcircular

/-! ## Netlists in order -/

/-- The view that a bus is followed to, whose bits are its parent's. -/
lemma follow?_eq_some_iff {net : Net} {view : View} :
    net.follow? = some view ↔ net.parent = some view ∧ 1 < net.width ∧ net.forcedRoot = false := by
  simp [Net.follow?, Net.isBus, and_comm, and_assoc]

/-- A bit of a view, counted on from where the view starts, is a bit of the parent. -/
lemma SoundNet.parent_hasBit {net : Net} {view : View} {i : UInt32} (h : nl.SoundNet net)
    (hparent : net.parent = some view) (hbit : i < net.width) :
    (i + view.offset).toNat = i.toNat + view.offset.toNat
      ∧ ∃ parent, nl.net? view.net = some parent ∧ i + view.offset < parent.width
        ∧ (1 < net.width → 1 < parent.width) := by
  obtain ⟨parent, hparentNet, hlast⟩ := h.inside view hparent
  rw [UInt32.lt_iff_toNat_lt] at hbit
  have hword : i.toNat + view.offset.toNat < UInt32.size :=
    Nat.lt_trans (show _ < parent.width.toNat by omega) parent.width.toNat_lt
  have hsum := addWord?_eq_some_iff.1 (if_pos hword : addWord? i view.offset = some _)
  simp only [UInt32.lt_iff_toNat_lt, UInt32.toNat_one]
  exact ⟨hsum.symm, parent, hparentNet, by omega, by omega⟩

/-- A bit of a bus that is followed goes to the bit of the parent that it stands for. -/
lemma step?_of_follow? {net : Net} {view : View} (h : nl.SoundNet net)
    (hnet : nl.net? p.net = some net) (hbit : p.bit < net.width) (hview : net.follow? = some view) :
    nl.step? p = some (.view ⟨view.net, p.bit + view.offset⟩) :=
  step?_eq_view_iff.2 ⟨net, view, hnet, hbit, hview, rfl,
    (h.parent_hasBit (follow?_eq_some_iff.1 hview).1 hbit).1⟩

/-- **A bit of a net is a root or is followed to a bit of another net**, in a netlist whose nets are
in order. -/
theorem step?_of_hasBit (hnets : ∀ net ∈ nl.nets, nl.SoundNet net) (hp : nl.HasBit p) :
    nl.step? p = some .root ∨ ∃ q, nl.step? p = some (.view q) ∧ nl.HasBit q := by
  obtain ⟨net, hnet, hbit⟩ := hp
  cases hview : net.follow? with
  | none => exact .inl (step?_eq_root_iff.2 ⟨net, hnet, hbit, hview⟩)
  | some view =>
      have hsound := hnets net (Array.mem_of_getElem? hnet)
      obtain ⟨-, parent, hparent, hlt, -⟩ :=
        hsound.parent_hasBit (follow?_eq_some_iff.1 hview).1 hbit
      exact .inr ⟨_, step?_of_follow? hsound hnet hbit hview, parent, hparent, hlt⟩

/-- Different nets that exist are no more than the nets of the netlist. -/
lemma length_le_of_nets {ids : List UInt32} (hnodup : ids.Nodup)
    (hids : ∀ id ∈ ids, (nl.net? id).isSome) : ids.length ≤ nl.nets.size :=
  length_le_of_nodup_of_lt hnodup fun id hid => by simpa [net?] using hids id hid

/-- The nets that were followed to one, the nearest first. -/
structure Followed (nl : Netlist) (path : List UInt32) (a : UInt32) : Prop where
  nodup : path.Nodup
  exist : ∀ x ∈ path, (nl.net? x).isSome
  before : ∀ x ∈ path, TransGen nl.Views x a

lemma Followed.push {path : List UInt32} (h : nl.Followed path a) (hcircular : ¬ nl.Circular a)
    (ha : (nl.net? a).isSome) (hab : nl.Views a b) : nl.Followed (a :: path) b := by
  refine ⟨List.nodup_cons.2 ⟨fun hpath => hcircular (.of_transGen (h.before a hpath)), h.nodup⟩,
    List.forall_mem_cons.2 ⟨ha, h.exist⟩, List.forall_mem_cons.2 ⟨.single hab, fun x hx => ?_⟩⟩
  exact (h.before x hx).tail hab

/-- A root is found, as long as the steps are enough for a path through all nets. -/
lemma isSome_rootWithin (hnets : ∀ net ∈ nl.nets, nl.SoundNet net) {steps : ℕ}
    {path : List UInt32} (hpath : nl.Followed path p.net) (hp : nl.HasBit p)
    (hcircular : ¬ nl.Circular p.net) (hsteps : nl.nets.size + 1 ≤ steps + path.length) :
    (nl.rootWithin steps p).isSome := by
  induction steps generalizing p path with
  | zero =>
      have := length_le_of_nets hpath.nodup hpath.exist
      omega
  | succ steps ih =>
      rw [rootWithin]
      rcases step?_of_hasBit hnets hp with hroot | ⟨q, hview, hq⟩
      · rw [hroot]
        rfl
      · rw [hview]
        obtain ⟨net, hnet, -⟩ := hp
        have hstep := views_of_step? hview
        refine ih (hpath.push hcircular (by simp [hnet]) hstep) hq
          (fun hcircular' => hcircular (hcircular'.of_views hstep)) ?_
        simp only [List.length_cons]
        omega

/-- **A bit has a root exactly if its net is not without end**, in a netlist whose nets are in
order. -/
theorem isSome_rootOf_iff (hnets : ∀ net ∈ nl.nets, nl.SoundNet net) (hp : nl.HasBit p) :
    (nl.rootOf p).isSome ↔ ¬ nl.Circular p.net := by
  constructor
  · intro h
    obtain ⟨r, hr⟩ := Option.isSome_iff_exists.1 h
    exact not_circular_of_rootWithin hr
  · intro hcircular
    exact isSome_rootWithin hnets ⟨List.nodup_nil, by simp, by simp⟩ hp hcircular (Nat.le_refl _)

end Netscribe.Netlist
