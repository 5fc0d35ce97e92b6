import Netscribe.Proofs.Netlist.View

/-!
# The walk to a root

`rootOf` looks for a root within a number of steps that is fixed beforehand.  The walk itself knows
no such number: from a bit of a view it goes on to the bit of the parent for as long as there is one,
and it ends where a net has storage.  In an arbitrary netlist a walk may also be caught in a circle of
views, or come to a bit that does not exist or to a place that is no word.

A walk that ends meets no net twice, since from a net that is met again there is no end.  So it has
fewer steps than there are nets, and the fixed number never cuts one off.

* `Netlist.Walk` — a walk that ends, with its number of steps.
* `Netlist.Walk.lt_size` — it has fewer steps than there are nets.
* `Netlist.rootOf_of_step` — a step towards the root does not change the root.
* **`Netlist.rootOf_walk`** — the root of a bit is the end of the walk from it.
-/

namespace Netscribe.Netlist

/-- **A walk that ends**, with the number of its steps.  Every point of it is a bit of a net. -/
inductive Walk (nl : Netlist) : ℕ → Point → Point → Prop
  /-- The end: a wire, a net that is no view, or a forced root. -/
  | stop {p net} : nl.net? p.net = some net → p.bit < net.width →
      net.width = 1 ∨ net.parent = none ∨ net.forcedRoot = true → Walk nl 0 p p
  /-- From a bit of a bus that is a view to the bit of the parent, whose place is a word. -/
  | follow {k p q r net view} : nl.net? p.net = some net → p.bit < net.width →
      1 < net.width → net.forcedRoot = false → net.parent = some view → q.net = view.net →
      q.bit.toNat = p.bit.toNat + view.offset.toNat → Walk nl k q r → Walk nl (k + 1) p r

variable {nl : Netlist} {k : ℕ} {p q r : Point}

lemma follow?_eq_none_iff {net : Net} {bit : UInt32} (hbit : bit < net.width) :
    net.follow? = none ↔ net.width = 1 ∨ net.parent = none ∨ net.forcedRoot = true := by
  -- a net with a bit is a wire or a bus
  have hwire : ¬ 1 < net.width ↔ net.width = 1 := by
    rw [← UInt32.toNat_inj]
    simp only [UInt32.lt_iff_toNat_lt, UInt32.toNat_one] at hbit ⊢
    omega
  rw [← hwire]
  cases hparent : net.parent with
  | none => simp [Net.follow?, hparent]
  | some view => simp [Net.follow?, Net.isBus, hparent, imp_iff_not_or]

/-! ## Walks and bounded searches -/

/-- A search finds the end of a walk if it may take more steps than the walk has. -/
lemma Walk.rootWithin_eq (h : nl.Walk k p r) {steps : ℕ} (hk : k < steps) :
    nl.rootWithin steps p = some r := by
  induction h generalizing steps with
  | stop hnet hbit hends =>
      obtain ⟨steps, rfl⟩ := Nat.exists_eq_succ_of_ne_zero (Nat.ne_zero_of_lt hk)
      have hroot := step?_eq_root_iff.2 ⟨_, hnet, hbit, (follow?_eq_none_iff hbit).2 hends⟩
      exact rootWithin_succ_eq_some_iff.2 (.inl ⟨hroot, rfl⟩)
  | follow hnet hbit hwide hforced hparent hq hsum _ ih =>
      obtain ⟨steps, rfl⟩ := Nat.exists_eq_succ_of_ne_zero (Nat.ne_zero_of_lt hk)
      have hfollow := follow?_eq_some_iff.2 ⟨hparent, hwide, hforced⟩
      have hview := step?_eq_view_iff.2 ⟨_, _, hnet, hbit, hfollow, hq, hsum⟩
      exact rootWithin_succ_eq_some_iff.2 (.inr ⟨_, hview, ih (Nat.lt_of_succ_lt_succ hk)⟩)

/-- What a search finds is the end of a walk with fewer steps than were allowed. -/
lemma exists_walk_of_rootWithin {steps : ℕ} (h : nl.rootWithin steps p = some r) :
    ∃ k < steps, nl.Walk k p r := by
  induction steps generalizing p with
  | zero => cases h
  | succ steps ih =>
      rcases rootWithin_succ_eq_some_iff.1 h with ⟨hroot, rfl⟩ | ⟨q, hview, hrest⟩
      · obtain ⟨net, hnet, hbit, hnone⟩ := step?_eq_root_iff.1 hroot
        exact ⟨0, Nat.succ_pos _, .stop hnet hbit ((follow?_eq_none_iff hbit).1 hnone)⟩
      · obtain ⟨k, hk, hwalk⟩ := ih hrest
        obtain ⟨net, view, hnet, hbit, hfollow, hq, hsum⟩ := step?_eq_view_iff.1 hview
        obtain ⟨hparent, hwide, hforced⟩ := follow?_eq_some_iff.1 hfollow
        exact ⟨k + 1, Nat.succ_lt_succ hk, .follow hnet hbit hwide hforced hparent hq hsum hwalk⟩

/-! ## The length of a walk -/

lemma Walk.not_circular (h : nl.Walk k p r) : ¬ nl.Circular p.net :=
  not_circular_of_rootWithin (h.rootWithin_eq (Nat.lt_succ_self k))

/-- The nets that were followed to where a walk starts, and those that it meets, are different
ones. -/
lemma Walk.lt_size_of_followed (h : nl.Walk k p r) {path : List UInt32}
    (hpath : nl.Followed path p.net) : path.length + k < nl.nets.size := by
  induction h generalizing path with
  | @stop p net hnet hbit hends =>
      have hnew : p.net ∉ path := fun hmem =>
        (Walk.stop hnet hbit hends).not_circular (.of_transGen (hpath.before _ hmem))
      have hall : ∀ id ∈ p.net :: path, (nl.net? id).isSome :=
        List.forall_mem_cons.2 ⟨by simp [hnet], hpath.exist⟩
      exact length_le_of_nets (List.nodup_cons.2 ⟨hnew, hpath.nodup⟩) hall
  | @follow k p q r net view hnet hbit hwide hforced hparent hq hsum hwalk ih =>
      have hviews : nl.Views p.net q.net :=
        ⟨net, view, hnet, follow?_eq_some_iff.2 ⟨hparent, hwide, hforced⟩, hq.symm⟩
      have hp : ¬ nl.Circular p.net :=
        (Walk.follow hnet hbit hwide hforced hparent hq hsum hwalk).not_circular
      have hlt := ih (hpath.push hp (by simp [hnet]) hviews)
      rw [List.length_cons] at hlt
      omega

/-- **A walk that ends has fewer steps than there are nets.** -/
lemma Walk.lt_size (h : nl.Walk k p r) : k < nl.nets.size := by
  have hstart : nl.Followed [] p.net := ⟨List.nodup_nil, by simp, by simp⟩
  simpa using h.lt_size_of_followed hstart

/-- A walk ends where there is nowhere to go. -/
lemma Walk.stop_end (h : nl.Walk k p r) : nl.Walk 0 r r := by
  induction h with
  | stop hnet hbit hends => exact .stop hnet hbit hends
  | follow _ _ _ _ _ _ _ _ ih => exact ih

/-! ## Roots -/

/-- As many steps as there are nets find what any number of steps finds. -/
lemma rootWithin_eq_some_iff {steps : ℕ} (hsteps : nl.nets.size ≤ steps) :
    nl.rootWithin steps p = some r ↔ ∃ k, nl.Walk k p r := by
  constructor
  · intro h
    obtain ⟨k, -, hwalk⟩ := exists_walk_of_rootWithin h
    exact ⟨k, hwalk⟩
  · rintro ⟨k, hwalk⟩
    exact hwalk.rootWithin_eq (Nat.lt_of_lt_of_le hwalk.lt_size hsteps)

lemma rootOf_eq_some_iff : nl.rootOf p = some r ↔ ∃ k, nl.Walk k p r :=
  rootWithin_eq_some_iff (Nat.le_succ _)

lemma rootWithin_eq_rootOf {steps : ℕ} (hsteps : nl.nets.size ≤ steps) :
    nl.rootWithin steps p = nl.rootOf p := by
  refine Option.ext fun r => ?_
  rw [rootWithin_eq_some_iff hsteps, rootOf_eq_some_iff]

/-- A bit with storage is its own root. -/
lemma rootOf_of_root (h : nl.step? p = some .root) : nl.rootOf p = some p :=
  rootWithin_succ_eq_some_iff.2 (.inl ⟨h, rfl⟩)

/-- **A step towards the root does not change the root.** -/
theorem rootOf_of_step (h : nl.step? p = some (.view q)) : nl.rootOf p = nl.rootOf q := by
  rw [rootOf, rootWithin, h]
  exact rootWithin_eq_rootOf (Nat.le_refl _)

/-- **The root of a bit is the end of the walk from it**, whatever the netlist: it is found exactly if
the walk ends.  The walk has then fewer steps than there are nets, so that a search with at least as
many steps always comes to the same answer, and a root is its own root. -/
theorem rootOf_walk (nl : Netlist) (p : Point) :
    (∀ r, nl.rootOf p = some r ↔ ∃ k, nl.Walk k p r)
    ∧ (∀ k r, nl.Walk k p r → k < nl.nets.size)
    ∧ (∀ steps, nl.nets.size ≤ steps → nl.rootWithin steps p = nl.rootOf p)
    ∧ ∀ r, nl.rootOf p = some r → nl.rootOf r = some r := by
  refine ⟨fun r => rootOf_eq_some_iff, fun k r h => h.lt_size,
    fun steps hsteps => rootWithin_eq_rootOf hsteps, fun r h => ?_⟩
  obtain ⟨k, hwalk⟩ := rootOf_eq_some_iff.1 h
  exact rootOf_eq_some_iff.2 ⟨0, hwalk.stop_end⟩

/-- The longest walk there can be, through all of four nets: three steps, and four steps of a search
are enough to find its end. -/
theorem rootOf_walk_longest :
    let nl : Netlist :=
      { nets := #[{ width := 8 }, { width := 6, parent := some ⟨0, 2⟩ },
          { width := 4, parent := some ⟨1, 1⟩ }, { width := 2, parent := some ⟨2, 1⟩ }] }
    nl.Walk 3 ⟨3, 1⟩ ⟨0, 5⟩ ∧ 3 < nl.nets.size
    ∧ nl.rootOf ⟨3, 1⟩ = some ⟨0, 5⟩ ∧ nl.rootOf ⟨0, 5⟩ = some ⟨0, 5⟩
    ∧ nl.rootWithin 3 ⟨3, 1⟩ = none ∧ nl.rootWithin 4 ⟨3, 1⟩ = nl.rootOf ⟨3, 1⟩ := by
  intro nl
  have hwalk : nl.Walk 3 ⟨3, 1⟩ ⟨0, 5⟩ :=
    .follow (q := ⟨2, 2⟩) rfl (by decide) (by decide) rfl rfl rfl rfl <|
    .follow (q := ⟨1, 3⟩) rfl (by decide) (by decide) rfl rfl rfl rfl <|
    .follow (q := ⟨0, 5⟩) rfl (by decide) (by decide) rfl rfl rfl rfl <|
    .stop rfl (by decide) (.inr (.inl rfl))
  obtain ⟨hroot, hlength, hsettled, hself⟩ := rootOf_walk nl ⟨3, 1⟩
  have hfound := (hroot ⟨0, 5⟩).2 ⟨3, hwalk⟩
  exact ⟨hwalk, hlength 3 _ hwalk, hfound, hself _ hfound, by decide, hsettled 4 (by decide)⟩

end Netscribe.Netlist
