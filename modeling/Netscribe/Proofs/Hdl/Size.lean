import Mathlib.Algebra.BigOperators.Group.List.Basic
import Mathlib.Algebra.Order.Ring.Nat
import Netscribe.Hdl.Module
import Netscribe.Proofs.Hdl.PortMap

/-!
# How many bits an entry binds

A reference has as many bits as the thing it names, or as it picks out of it; zeros have their width,
and what is left open has any number of bits, or one where it stands for a single bit.  Entries of
one port bind as many bits as their actuals have together.

* `Ref.Has`, `Actual.Has`, `Connection.Has` — how many bits there are, in a scope.
* `Binds` — how many bits some entries bind, with `Binds.perm`.
* `binds_bitAssociations`, `length_of_binds` — a port that is bound bit by bit.
-/

namespace Netscribe

/-! ## Actuals -/

/-- **How many bits a reference has**, in a scope in which its name is declared and its indices lie
inside of the width. -/
inductive Ref.Has (scope : List Signal) : Ref → ℕ → Prop
  | whole {name width} : ⟨name, width⟩ ∈ scope → Has scope (.whole name) width
  | bit {name width index} : ⟨name, width⟩ ∈ scope → 1 < width → index < width →
      Has scope (.bit name index) 1
  /-- From the lowest bit to the highest, both included. -/
  | range {name width hi lo n} : ⟨name, width⟩ ∈ scope → 1 < width → lo ≤ hi → hi < width →
      n + lo = hi + 1 → Has scope (.range name hi lo) n

/-- **How many bits an actual has.** -/
inductive Actual.Has (scope : List Signal) : Actual → ℕ → Prop
  | ref {r n} : r.Has scope n → Has scope (.ref r) n
  | zeros (width) : Has scope (.zeros width) (max width 1)
  /-- A whole port left open, of any width. -/
  | unconnected (n) : Has scope .unconnected n
  | unconnectedBit : Has scope .unconnectedBit 1

/-- **How many bits the right side of an entry has.** -/
inductive Connection.Has (scope : List Signal) : Connection → ℕ → Prop
  | single {a n} : a.Has scope n → Has scope (.single a) n
  /-- As many as the parts together. -/
  | concatenation {as} (size : Actual → ℕ) : (∀ a ∈ as, a.Has scope (size a)) →
      Has scope (.concatenation as) (as.map size).sum

variable {scope scope' : List Signal} {n : ℕ}

lemma Ref.Has.mono {r : Ref} (h : r.Has scope n) (hscope : scope ⊆ scope') : r.Has scope' n := by
  cases h with
  | whole hmem => exact .whole (hscope hmem)
  | bit hmem hwide hindex => exact .bit (hscope hmem) hwide hindex
  | range hmem hwide hle hhi hn => exact .range (hscope hmem) hwide hle hhi hn

@[simp] lemma Actual.has_ref_iff {r : Ref} : (Actual.ref r).Has scope n ↔ r.Has scope n := by
  constructor
  · rintro ⟨h⟩
    exact h
  · exact .ref

@[simp] lemma Actual.has_zeros_iff {width : ℕ} :
    (Actual.zeros width).Has scope n ↔ n = max width 1 := by
  constructor
  · rintro ⟨⟩
    rfl
  · rintro rfl
    exact .zeros width

@[simp] lemma Actual.has_unconnected (n : ℕ) : Actual.unconnected.Has scope n :=
  .unconnected n

@[simp] lemma Actual.has_unconnectedBit_iff : Actual.unconnectedBit.Has scope n ↔ n = 1 := by
  constructor
  · rintro ⟨⟩
    rfl
  · rintro rfl
    exact .unconnectedBit

@[simp] lemma Connection.has_single_iff {a : Actual} :
    (Connection.single a).Has scope n ↔ a.Has scope n := by
  constructor
  · rintro ⟨h⟩
    exact h
  · exact .single

/-! ## Entries -/

/-- **Some entries bind a number of bits** together. -/
def Binds (scope : List Signal) (entries : List Association) (n : ℕ) : Prop :=
  ∃ size : Association → ℕ, (∀ e ∈ entries, e.actual.Has scope (size e)) ∧ (entries.map size).sum = n

variable {entries entries' : List Association} {port : String} {as : List Actual}

lemma Binds.perm (h : Binds scope entries n) (hperm : entries.Perm entries') :
    Binds scope entries' n := by
  obtain ⟨size, hsize, hsum⟩ := h
  refine ⟨size, fun e he => hsize e (hperm.mem_iff.2 he), ?_⟩
  rw [← (hperm.map size).sum_eq, hsum]

@[simp] lemma binds_single_iff {a : Association} : Binds scope [a] n ↔ a.actual.Has scope n := by
  constructor
  · rintro ⟨size, hsize, rfl⟩
    simpa using hsize a (List.mem_singleton_self a)
  · intro h
    exact ⟨fun _ => n, by simpa using h, by simp⟩

@[simp] lemma binds_whole_iff {a : Actual} {d : Dialect} :
    Binds scope (d.associations port (.whole a)) n ↔ a.Has scope n :=
  binds_single_iff.trans Connection.has_single_iff

lemma sum_eq_length {α : Type} {xs : List α} {size : α → ℕ} (h : ∀ x ∈ xs, size x = 1) :
    (xs.map size).sum = xs.length := by
  rw [List.map_congr_left h]
  simp

/-- A single bit binds the port as a whole; otherwise there is one entry for each bit in VHDL, and
one for all of them in Verilog. -/
lemma binds_bitAssociations (h : ∀ a ∈ as, a.Has scope 1) (d : Dialect) (has : as ≠ []) :
    Binds scope (d.bitAssociations port as) as.length := by
  rw [Dialect.bitAssociations.eq_def]
  split
  · next a => simpa using h a (List.mem_singleton_self a)
  · cases d with
    | vhdl =>
        refine ⟨fun _ => 1, fun e he => ?_, by simp [sum_eq_length]⟩
        obtain ⟨⟨a, i⟩, ha, rfl⟩ := List.mem_map.1 he
        exact .single (h a (List.fst_mem_of_mem_zipIdx ha))
    | verilog =>
        have hall : (Connection.concatenation as.reverse).Has scope
            (as.reverse.map fun _ => 1).sum :=
          .concatenation _ fun a ha => h a (List.mem_reverse.1 ha)
        rw [sum_eq_length (fun _ _ => rfl), List.length_reverse] at hall
        exact binds_single_iff.2 hall

/-- **Bits of one bit each** bind no more and no fewer than there are. -/
lemma length_of_binds (h : ∀ a ∈ as, ∀ n, a.Has scope n → n = 1) {d : Dialect}
    (hbinds : Binds scope (d.bitAssociations port as) n) : n = as.length := by
  rw [Dialect.bitAssociations.eq_def] at hbinds
  split at hbinds
  · next a => simpa using h a (List.mem_singleton_self a) n (by simpa using hbinds)
  · cases d with
    | vhdl =>
        obtain ⟨size, hsize, rfl⟩ := hbinds
        rw [sum_eq_length fun e he => ?_]
        · simp
        · obtain ⟨⟨a, i⟩, ha, rfl⟩ := List.mem_map.1 he
          exact h a (List.fst_mem_of_mem_zipIdx ha) _ (by simpa using hsize _ he)
    | verilog =>
        rw [binds_single_iff] at hbinds
        cases hbinds with
        | concatenation size hsize =>
            rw [sum_eq_length fun a ha => h a (List.mem_reverse.1 ha) _ (hsize a ha)]
            simp

end Netscribe
