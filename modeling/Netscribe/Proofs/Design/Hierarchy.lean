import Mathlib.Tactic.Common
import Netscribe.Design.Validation
import Netscribe.Proofs.Data.Lists

/-!
# What the search for cycles finds

The search keeps a list of finished circuits in which every circuit comes after those that it
instantiates.  Such a list bounds every path down the hierarchy, and a search from all circuits that
succeeds has them all on one.

* `Design.Finished` — a list in which children come first.
* `Design.Bounded` — all paths down from a circuit exist and are short.
* **`Design.explore_finished`** — the search keeps the list in order.
* **`Design.bounded_of_checkAcyclic`** — a design that passes has no path longer than its circuits.
-/

namespace Netscribe

namespace Design

variable (d : Design)

/-- **Circuits in an order in which children come first**: the latest one is at the head. -/
inductive Finished : List UInt32 → Prop
  | nil : Finished []
  /-- A circuit all of whose children are there. -/
  | cons {id c ids} : d.circuit? id = some c → id ∉ ids →
      (∀ child ∈ c.netlist.children, child ∈ ids) → Finished ids → Finished (id :: ids)

/-- **Every path down from a circuit leads to circuits that exist**, and has at most so many. -/
def Bounded : ℕ → UInt32 → Prop
  | 0, _ => False
  | levels + 1, id =>
    ∃ c, d.circuit? id = some c ∧ ∀ child ∈ c.netlist.children, Bounded levels child

variable {d}

/-! ## Bounds -/

lemma Bounded.mono {m n : ℕ} (h : m ≤ n) {id : UInt32} (hb : d.Bounded m id) : d.Bounded n id := by
  induction m generalizing n id with
  | zero => exact hb.elim
  | succ m ih =>
      obtain ⟨k, rfl⟩ : ∃ k, n = k + 1 := ⟨n - 1, by omega⟩
      obtain ⟨c, hc, hchildren⟩ := hb
      exact ⟨c, hc, fun child hchild => ih (by omega) (hchildren child hchild)⟩

/-- The circuits of such a list are bounded by its length. -/
lemma Finished.bounded {ids : List UInt32} (h : d.Finished ids) :
    ∀ id ∈ ids, d.Bounded ids.length id := by
  induction h with
  | nil => simp
  | @cons id c ids hc hid hchildren _ ih =>
      intro x hx
      rcases List.mem_cons.1 hx with rfl | hx
      · exact ⟨c, hc, fun child hchild => ih child (hchildren child hchild)⟩
      · exact (ih x hx).mono (by simp)

lemma Finished.nodup {ids : List UInt32} (h : d.Finished ids) : ids.Nodup := by
  induction h with
  | nil => exact List.nodup_nil
  | cons _ hid _ _ ih => exact List.nodup_cons.2 ⟨hid, ih⟩

lemma Finished.exists_circuit {ids : List UInt32} (h : d.Finished ids) :
    ∀ id ∈ ids, (d.circuit? id).isSome := by
  induction h with
  | nil => simp
  | cons hc _ _ _ ih =>
      intro x hx
      rcases List.mem_cons.1 hx with rfl | hx
      · simp [hc]
      · exact ih x hx

/-- Different circuits that exist are no more than the circuits of the design. -/
lemma length_le_of_nodup {ids : List UInt32} (hnodup : ids.Nodup)
    (hids : ∀ id ∈ ids, (d.circuit? id).isSome) : ids.length ≤ d.circuits.size :=
  length_le_of_nodup_of_lt hnodup fun id hid => by simpa [circuit?] using hids id hid

/-! ## The search -/

/-- **What holds of a path while the search goes on**: it has different circuits, none of them
finished, and levels enough are left. -/
structure Searching (d : Design) (levels : ℕ) (path finished : List UInt32) : Prop where
  /-- The finished circuits are in order. -/
  inOrder : d.Finished finished
  /-- No circuit is on the path twice. -/
  nodup : path.Nodup
  /-- The circuits of the path exist. -/
  exist : ∀ id ∈ path, (d.circuit? id).isSome
  notFinished : ∀ id ∈ path, id ∉ finished
  /-- A path through all circuits would not use up the levels. -/
  levels : d.circuits.size + 1 ≤ levels + path.length

namespace Searching

variable {levels : ℕ} {path finished : List UInt32}

lemma pos (h : Searching d levels path finished) : 0 < levels := by
  have := length_le_of_nodup h.nodup h.exist
  have := h.levels
  omega

/-- The search goes on below a circuit that is neither finished nor on the path. -/
lemma push {id : UInt32} {c : Circuit} (h : Searching d (levels + 1) path finished)
    (hc : d.circuit? id = some c) (hfinished : id ∉ finished) (hpath : id ∉ path) :
    Searching d levels (id :: path) finished where
  inOrder := h.inOrder
  nodup := List.nodup_cons.2 ⟨hpath, h.nodup⟩
  exist := by
    intro x hx
    rcases List.mem_cons.1 hx with rfl | hx
    · simp [hc]
    · exact h.exist x hx
  notFinished := by
    intro x hx
    rcases List.mem_cons.1 hx with rfl | hx
    · exact hfinished
    · exact h.notFinished x hx
  levels := by
    have := h.levels
    simp only [List.length_cons]
    omega

end Searching

/-- What a search below one circuit gives back: more circuits, that one among them. -/
def Extends (finished result : List UInt32) (ids : List UInt32) : Prop :=
  finished ⊆ result ∧ ∀ id ∈ ids, id ∈ result

/-- A search below several circuits in turn, given what the search below one does. -/
lemma foldlM_explore {levels : ℕ} {path : List UInt32}
    (step : ∀ id finished result, Searching d levels path finished →
      d.explore levels path id finished = .ok result →
        Searching d levels path result ∧ Extends finished result [id]) :
    ∀ ids finished result, Searching d levels path finished →
      ids.foldlM (fun finished id => d.explore levels path id finished) finished = .ok result →
        Searching d levels path result ∧ Extends finished result ids := by
  intro ids
  induction ids with
  | nil =>
      rintro finished result h hrun
      obtain rfl : finished = result := Except.ok.inj hrun
      exact ⟨h, List.Subset.refl _, by simp⟩
  | cons id ids ih =>
      intro finished result h hrun
      rw [List.foldlM_cons] at hrun
      cases hone : d.explore levels path id finished with
      | error e =>
          rw [hone] at hrun
          cases hrun
      | ok middle =>
          rw [hone] at hrun
          obtain ⟨hmiddle, hsub, hid⟩ := step id finished middle h hone
          obtain ⟨hresult, hsub', hids⟩ := ih middle result hmiddle hrun
          refine ⟨hresult, fun x hx => hsub' (hsub hx), fun x hx => ?_⟩
          rcases List.mem_cons.1 hx with rfl | hx
          · exact hsub' (hid x (by simp))
          · exact hids x hx

/-- **The search keeps the list in order**, and the circuit that it was asked about is on it. -/
theorem explore_finished : ∀ (levels : ℕ) (path : List UInt32) (id : UInt32)
    (finished result : List UInt32), Searching d levels path finished →
      d.explore levels path id finished = .ok result →
        Searching d levels path result ∧ Extends finished result [id]
  | 0, _, _, _, _, h, _ => absurd h.pos (by omega)
  | levels + 1, path, id, finished, result, h, hrun => by
      rw [explore] at hrun
      split at hrun
      · next hfinished =>
          obtain rfl : finished = result := Except.ok.inj hrun
          exact ⟨h, List.Subset.refl _, by simpa using hfinished⟩
      · next hfinished =>
          split at hrun
          · cases hrun
          · next c hc =>
              split at hrun
              · cases hrun
              · next hpath =>
                  cases hchildren : c.netlist.children.foldlM
                      (fun finished child => d.explore levels (id :: path) child finished)
                      finished with
                  | error e =>
                      rw [hchildren] at hrun
                      cases hrun
                  | ok below =>
                      rw [hchildren] at hrun
                      obtain rfl : id :: below = result := Except.ok.inj hrun
                      -- below the circuit, it is itself on the path
                      obtain ⟨hbelow, hsub, hids⟩ := foldlM_explore
                        (fun id => explore_finished levels _ id) _ _ _
                        (h.push hc hfinished hpath) hchildren
                      have hopen := hbelow.notFinished id (by simp)
                      refine ⟨⟨.cons hc hopen hids hbelow.inOrder, h.nodup, h.exist, ?_, h.levels⟩,
                        fun x hx => List.mem_cons_of_mem _ (hsub hx), by simp⟩
                      intro x hx hmem
                      rcases List.mem_cons.1 hmem with rfl | hmem
                      · exact hpath hx
                      · exact hbelow.notFinished x (by simp [hx]) hmem

/-! ## Designs that pass -/

lemma mem_ids {id : UInt32} (h : (d.circuit? id).isSome) : id ∈ d.ids := by
  refine List.mem_map.2 ⟨id.toNat, ?_, UInt32.ofNat_toNat⟩
  simpa [circuit?] using h

/-- **A design that passes has no path longer than the number of its circuits**, and every path
leads to circuits that exist. -/
theorem bounded_of_checkAcyclic (h : d.checkAcyclic = .ok ()) {id : UInt32}
    (hid : (d.circuit? id).isSome) : d.Bounded d.circuits.size id := by
  rw [checkAcyclic] at h
  cases hrun : d.ids.foldlM (fun finished id => d.explore (d.circuits.size + 1) [] id finished) []
    with
  | error e =>
      rw [hrun] at h
      cases h
  | ok result =>
      have hstart : Searching d (d.circuits.size + 1) [] [] :=
        ⟨.nil, List.nodup_nil, by simp, by simp, by simp⟩
      obtain ⟨hresult, -, hids⟩ := foldlM_explore
        (fun id => explore_finished _ _ id) _ _ _ hstart hrun
      have hfinished := hresult.inOrder
      exact (hfinished.bounded id (hids id (mem_ids hid))).mono
        (length_le_of_nodup hfinished.nodup hfinished.exists_circuit)

/-- What a design that is accepted has: a top circuit, and a bound on all paths. -/
theorem bounded_of_validate (h : d.validate = .ok ()) :
    (∃ top, d.topCircuit? = some top) ∧ d.Bounded d.circuits.size d.top := by
  rw [validate] at h
  cases htop : d.topCircuit? with
  | none =>
      rw [htop] at h
      cases h
  | some top =>
      rw [htop] at h
      cases hcircuits : d.circuits.toList.forM d.checkCircuit with
      | error e =>
          rw [hcircuits] at h
          cases h
      | ok _ =>
          rw [hcircuits] at h
          have hexists : (d.circuit? d.top).isSome := by
            rw [← topCircuit?, htop]
            rfl
          exact ⟨⟨top, rfl⟩, bounded_of_checkAcyclic h hexists⟩

end Design

end Netscribe
