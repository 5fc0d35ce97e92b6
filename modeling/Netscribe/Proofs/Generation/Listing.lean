import Mathlib.Tactic.Common
import Netscribe.Proofs.Data.Lists
import Netscribe.Proofs.Design.Hierarchy
import Netscribe.Proofs.Generation.Walk

/-!
# What a design asks for, listed naively

The listing of a circuit has its primitives, then the listings of all circuits it instantiates, and
then the circuit, with no memory of what was listed before.  It is the measure of a walk, which does
remember.

* `Context.listing`, `Context.topListing` — the listing of a circuit, and that of a design.
* `Context.uses` — what the definition of a circuit instantiates.
* `Context.Reaches` — what is asked for below a circuit.
* `Context.exists_listing` — a bounded hierarchy has a listing.
* `Context.reaches_of_mem`, `Context.mem_of_reaches` — what is listed is what is asked for.
* `Context.listing_sublist`, `Context.listing_eq_append` — listings inside a listing.
* `Context.OwnFirst` — a listing in which no definition comes second under its name.
-/

namespace Netscribe

/-- The circuits that are instantiated, with their variants, in order. -/
def Netlist.targets (nl : Netlist) : List (UInt32 × Bool) :=
  nl.instances.filterMap Component.target?

lemma Netlist.mem_targets {nl : Netlist} {c : Component} {t : UInt32 × Bool} (hc : c ∈ nl.instances)
    (ht : c.target? = some t) : t ∈ nl.targets :=
  List.mem_filterMap.2 ⟨c, hc, ht⟩

lemma Netlist.mem_children {nl : Netlist} {t : UInt32 × Bool} (h : t ∈ nl.targets) :
    t.1 ∈ nl.children := by
  obtain ⟨c, hc, ht⟩ := List.mem_filterMap.1 h
  exact List.mem_filterMap.2 ⟨c, hc, by simp [ht]⟩

namespace Context

variable (ctx : Context)

/-- The primitives that the components of a netlist ask for, in order. -/
def primitives (nl : Netlist) : List Origin :=
  (nl.components.filterMap ctx.registry.resolve?).map .primitive

/-- **The naive listing** of a circuit, with at most `levels` circuits on any path down; none where
that is too few, or a circuit does not exist. -/
def listing : (levels : ℕ) → (id : UInt32) → (gated : Bool) → Option (List Origin)
  | 0, _, _ => none
  | levels + 1, id, gated => do
    let c ← ctx.design.circuit? id
    let below ← c.netlist.targets.mapM fun t => listing levels t.1 t.2
    return ctx.primitives c.netlist ++ below.flatten ++ [.circuit id gated]

/-- **The naive listing of a design**: that of its top circuit. -/
def topListing : Option (List Origin) :=
  ctx.listing ctx.design.circuits.size ctx.design.top false

/-- **What the definition of a circuit instantiates**: primitives that are written, and circuits. -/
def uses (id : UInt32) : List Origin :=
  match ctx.design.circuit? id with
  | some c =>
    (ctx.primitives c.netlist).filter Origin.isWritten
      ++ c.netlist.targets.map fun t => .circuit t.1 t.2
  | none => []

/-- **What is asked for below a circuit**, written in place or not, and the circuit itself. -/
inductive Reaches (top : UInt32) : Origin → Prop
  | top : Reaches top (.circuit top false)
  /-- A primitive of a circuit. -/
  | primitive {id gated c o} : Reaches top (.circuit id gated) → ctx.design.circuit? id = some c →
      o ∈ ctx.primitives c.netlist → Reaches top o
  /-- A circuit that a circuit instantiates. -/
  | instance {id gated c t} : Reaches top (.circuit id gated) → ctx.design.circuit? id = some c →
      t ∈ c.netlist.targets → Reaches top (.circuit t.1 t.2)

/-- **No definition comes second under its name**: the first entry with the name of a written one is
that one. -/
def OwnFirst (xs : List Origin) : Prop :=
  ∀ o ∈ xs, o.isWritten = true → xs.find? (fun x => ctx.nameOf x == ctx.nameOf o) = some o

variable {ctx} {levels : ℕ} {id : UInt32} {gated : Bool} {l : List Origin}

/-! ## Listings -/

lemma listing_succ_eq_some_iff :
    ctx.listing (levels + 1) id gated = some l ↔
      ∃ (c : Circuit) (below : List (List Origin)), ctx.design.circuit? id = some c
        ∧ (c.netlist.targets.map fun t => ctx.listing levels t.1 t.2) = below.map some
        ∧ ctx.primitives c.netlist ++ below.flatten ++ [.circuit id gated] = l := by
  simp [listing, Option.bind_eq_some_iff, mapM_eq_some_iff]

lemma listing_mono {m n : ℕ} (hle : m ≤ n) (h : ctx.listing m id gated = some l) :
    ctx.listing n id gated = some l := by
  induction m generalizing n id gated l with
  | zero => cases h
  | succ m ih =>
      obtain ⟨n, rfl⟩ : ∃ k, n = k + 1 := ⟨n - 1, by omega⟩
      obtain ⟨c, below, hc, hbelow, rfl⟩ := listing_succ_eq_some_iff.1 h
      refine listing_succ_eq_some_iff.2 ⟨c, below, hc, ?_, rfl⟩
      rw [← hbelow]
      refine List.map_congr_left fun t ht => ?_
      obtain ⟨b, -, hb⟩ := List.mem_map.1 (hbelow ▸ List.mem_map_of_mem ht)
      rw [← hb]
      exact ih (by omega) hb.symm

lemma listing_unique {m n : ℕ} {l' : List Origin} (h : ctx.listing m id gated = some l)
    (h' : ctx.listing n id gated = some l') : l = l' := by
  rcases Nat.le_total m n with hle | hle
  · exact Option.some.inj ((listing_mono hle h).symm.trans h')
  · exact Option.some.inj (h.symm.trans (listing_mono hle h'))

/-- **A bounded hierarchy has a listing.** -/
lemma exists_listing (h : ctx.design.Bounded levels id) (gated : Bool) :
    ∃ l, ctx.listing levels id gated = some l := by
  induction levels generalizing id gated with
  | zero => exact h.elim
  | succ levels ih =>
      obtain ⟨c, hc, hchildren⟩ := h
      obtain ⟨below, hbelow⟩ := exists_map_some
        (fun t : UInt32 × Bool => ctx.listing levels t.1 t.2)
        fun t ht => ih (hchildren t.1 (Netlist.mem_children ht)) t.2
      exact ⟨_, listing_succ_eq_some_iff.2 ⟨c, below, hc, hbelow, rfl⟩⟩

lemma circuit_of_listing (h : ctx.listing levels id gated = some l) :
    ∃ c, ctx.design.circuit? id = some c := by
  cases levels with
  | zero => cases h
  | succ levels =>
      obtain ⟨c, below, hc, -, -⟩ := listing_succ_eq_some_iff.1 h
      exact ⟨c, hc⟩

lemma own_mem (h : ctx.listing levels id gated = some l) : .circuit id gated ∈ l := by
  cases levels with
  | zero => cases h
  | succ levels =>
      obtain ⟨c, below, -, -, rfl⟩ := listing_succ_eq_some_iff.1 h
      simp

/-- **The listing of a listed circuit** is part of the listing. -/
theorem listing_sublist {id' : UInt32} {gated' : Bool} (h : ctx.listing levels id gated = some l)
    (hmem : .circuit id' gated' ∈ l) :
    ∃ l', ctx.listing levels id' gated' = some l' ∧ l'.Sublist l := by
  induction levels generalizing id gated l with
  | zero => cases h
  | succ levels ih =>
      obtain ⟨c, below, hc, hbelow, hl⟩ := listing_succ_eq_some_iff.1 h
      rw [← hl] at hmem
      rcases List.mem_append.1 hmem with hmem | hmem
      · rcases List.mem_append.1 hmem with hmem | hmem
        · obtain ⟨p, -, hp⟩ := List.mem_map.1 hmem
          cases hp
        · -- inside the listing of an instance
          obtain ⟨b, hb, hmem⟩ := List.mem_flatten.1 hmem
          obtain ⟨t, -, ht⟩ := List.mem_map.1 (hbelow ▸ List.mem_map_of_mem (f := some) hb)
          obtain ⟨l', hl', hsub⟩ := ih ht hmem
          refine ⟨l', listing_mono (by omega) hl', hsub.trans ?_⟩
          rw [← hl]
          exact ((List.sublist_flatten_of_mem hb).trans (List.sublist_append_right _ _)).trans
            (List.sublist_append_left _ _)
      · cases List.mem_singleton.1 hmem
        exact ⟨l, h, List.Sublist.refl l⟩

/-- **A circuit is listed last in its listing, and nowhere before**: it would be its own part. -/
theorem listing_eq_append (h : ctx.listing levels id gated = some l) :
    ∃ init, l = init ++ [.circuit id gated] ∧ .circuit id gated ∉ init := by
  cases levels with
  | zero => cases h
  | succ levels =>
      obtain ⟨c, below, -, hbelow, hl⟩ := listing_succ_eq_some_iff.1 h
      refine ⟨_, hl.symm, fun hmem => ?_⟩
      rcases List.mem_append.1 hmem with hmem | hmem
      · obtain ⟨p, -, hp⟩ := List.mem_map.1 hmem
        cases hp
      · obtain ⟨b, hb, hmem⟩ := List.mem_flatten.1 hmem
        obtain ⟨t, -, ht⟩ := List.mem_map.1 (hbelow ▸ List.mem_map_of_mem (f := some) hb)
        obtain ⟨l', hl', hsub⟩ := listing_sublist ht hmem
        obtain rfl := listing_unique h hl'
        have hlength := (hsub.trans (List.sublist_flatten_of_mem hb)).length_le
        rw [← hl] at hlength
        simp only [List.length_append, List.length_singleton] at hlength
        omega

/-! ## What a listing has -/

lemma uses_subset {init : List Origin}
    (h : ctx.listing levels id gated = some (init ++ [.circuit id gated])) :
    ctx.uses id ⊆ init := by
  cases levels with
  | zero => cases h
  | succ levels =>
      obtain ⟨c, below, hc, hbelow, hl⟩ := listing_succ_eq_some_iff.1 h
      obtain rfl := List.append_cancel_right hl
      intro o ho
      rw [uses, hc] at ho
      rcases List.mem_append.1 ho with ho | ho
      · exact List.mem_append_left _ (List.mem_filter.1 ho).1
      · obtain ⟨t, ht, rfl⟩ := List.mem_map.1 ho
        obtain ⟨b, hb, hb'⟩ := List.mem_map.1 (hbelow ▸ List.mem_map_of_mem ht)
        exact List.mem_append_right _ (List.mem_flatten.2 ⟨b, hb, own_mem hb'.symm⟩)

lemma isWritten_of_mem_uses {o : Origin} (h : o ∈ ctx.uses id) : o.isWritten = true := by
  rw [uses] at h
  split at h
  · rcases List.mem_append.1 h with h | h
    · exact (List.mem_filter.1 h).2
    · obtain ⟨t, -, rfl⟩ := List.mem_map.1 h
      rfl
  · cases h

/-- Whatever has a circuit, and with every circuit all that its definition instantiates, has all
that is written of the circuit's listing. -/
lemma listing_subset_of_uses {S : List Origin}
    (hS : ∀ id gated, .circuit id gated ∈ S → ctx.uses id ⊆ S)
    (h : ctx.listing levels id gated = some l) (hid : .circuit id gated ∈ S) :
    ∀ o ∈ l, o.isWritten = true → o ∈ S := by
  induction levels generalizing id gated l with
  | zero => cases h
  | succ levels ih =>
      obtain ⟨c, below, hc, hbelow, rfl⟩ := listing_succ_eq_some_iff.1 h
      have huses := hS id gated hid
      rw [uses, hc] at huses
      intro o ho hwritten
      rcases List.mem_append.1 ho with ho | ho
      · rcases List.mem_append.1 ho with ho | ho
        · exact huses (List.mem_append_left _ (List.mem_filter.2 ⟨ho, hwritten⟩))
        · obtain ⟨b, hb, ho⟩ := List.mem_flatten.1 ho
          obtain ⟨t, ht, hlist⟩ := List.mem_map.1 (hbelow ▸ List.mem_map_of_mem (f := some) hb)
          exact ih hlist (huses (List.mem_append_right _ (List.mem_map_of_mem ht))) o ho hwritten
      · rwa [List.mem_singleton.1 ho]

/-- What is listed of a circuit is asked for below it. -/
lemma reaches_of_mem {top : UInt32} (htop : ctx.Reaches top (.circuit id gated))
    (h : ctx.listing levels id gated = some l) : ∀ o ∈ l, ctx.Reaches top o := by
  induction levels generalizing id gated l with
  | zero => cases h
  | succ levels ih =>
      obtain ⟨c, below, hc, hbelow, rfl⟩ := listing_succ_eq_some_iff.1 h
      intro o ho
      rcases List.mem_append.1 ho with ho | ho
      · rcases List.mem_append.1 ho with ho | ho
        · exact .primitive htop hc ho
        · obtain ⟨b, hb, ho⟩ := List.mem_flatten.1 ho
          obtain ⟨t, ht, hlist⟩ := List.mem_map.1 (hbelow ▸ List.mem_map_of_mem (f := some) hb)
          exact ih (.instance htop hc ht) hlist o ho
      · rwa [List.mem_singleton.1 ho]

lemma primitives_subset {c : Circuit} (h : ctx.listing levels id gated = some l)
    (hc : ctx.design.circuit? id = some c) : ctx.primitives c.netlist ⊆ l := by
  cases levels with
  | zero => cases h
  | succ levels =>
      obtain ⟨c', below, hc', -, rfl⟩ := listing_succ_eq_some_iff.1 h
      obtain rfl : c = c' := Option.some.inj (hc.symm.trans hc')
      rw [List.append_assoc]
      exact List.subset_append_left _ _

/-- **Everything asked for below a circuit is listed.** -/
theorem mem_of_reaches {top : UInt32} (h : ctx.listing levels top false = some l) {o : Origin}
    (ho : ctx.Reaches top o) : o ∈ l := by
  induction ho with
  | top => exact own_mem h
  | primitive _ hc hmem ih =>
      obtain ⟨l', hl', hsub⟩ := listing_sublist h ih
      exact hsub.subset (primitives_subset hl' hc hmem)
  | «instance» _ hc ht ih =>
      obtain ⟨l', hl', hsub⟩ := listing_sublist h ih
      obtain ⟨init, rfl, -⟩ := listing_eq_append hl'
      refine hsub.subset (List.mem_append_left _ (uses_subset hl' ?_))
      rw [uses, hc]
      exact List.mem_append_right _ (List.mem_map_of_mem ht)

/-- **Where names tell definitions apart, none comes second under its name.** -/
lemma ownFirst_of_injOn {xs : List Origin}
    (h : ∀ o ∈ xs, ∀ o' ∈ xs, ctx.nameOf o = ctx.nameOf o' → o = o') : ctx.OwnFirst xs := by
  intro o ho _
  cases hfind : xs.find? (fun x => ctx.nameOf x == ctx.nameOf o) with
  | none => exact absurd (List.find?_eq_none.1 hfind o ho) (by simp)
  | some x =>
      have hname : ctx.nameOf x = ctx.nameOf o := by simpa using List.find?_some hfind
      rw [h x (List.mem_of_find?_eq_some hfind) o ho hname]

end Context

end Netscribe
