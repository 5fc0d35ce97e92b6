import Mathlib.Data.List.Basic
import Netscribe.Proofs.Text.Identifier

/-!
# The order of texts

Texts are ordered by the first character in which they differ.  Generated names, and what is made of
them, have ASCII characters only, and each of these is one byte: their order is that of their bytes.
Between two texts that start alike stand only texts that start so too.

* `map_lt_map`, `isPrefix_of_between` — lists in lexicographic order.
* `bytes`, `IsAscii` — the bytes of a text, and texts of which each character is one.
* **`bytes_lt_bytes`** — texts in the order of their characters are in the order of their bytes.
-/

namespace Netscribe

/-! ## Lists -/

section Lists

variable {α β : Type} [LT α]

/-- A function that keeps the order of entries keeps that of lists. -/
lemma map_lt_map [LT β] {f : α → β} {xs ys : List α}
    (hf : ∀ x ∈ xs, ∀ y ∈ ys, x < y → f x < f y) (h : xs < ys) : xs.map f < ys.map f := by
  induction xs generalizing ys with
  | nil =>
      cases ys with
      | nil => exact absurd h (List.not_lt_nil _)
      | cons y ys => exact List.nil_lt_cons _ _
  | cons x xs ih =>
      cases ys with
      | nil => exact absurd h (List.not_lt_nil _)
      | cons y ys =>
          rw [List.map_cons, List.map_cons, List.cons_lt_cons_iff]
          rcases List.cons_lt_cons_iff.1 h with hlt | ⟨rfl, hlt⟩
          · exact .inl (hf x List.mem_cons_self y List.mem_cons_self hlt)
          · refine .inr ⟨rfl, ih (fun a ha b hb => ?_) hlt⟩
            exact hf a (List.mem_cons_of_mem _ ha) b (List.mem_cons_of_mem _ hb)

/-- **What stands between two lists that start alike** starts so too. -/
lemma isPrefix_of_between [Std.Asymm fun x y : α => x < y] {start xs ys zs : List α}
    (hxs : start <+: xs) (hzs : start <+: zs) (hxy : xs < ys) (hyz : ys < zs) : start <+: ys := by
  induction start generalizing xs ys zs with
  | nil => exact List.nil_prefix
  | cons a start ih =>
      obtain ⟨xs, rfl⟩ := hxs
      obtain ⟨zs, rfl⟩ := hzs
      cases ys with
      | nil => exact absurd hxy (List.not_lt_nil _)
      | cons b ys =>
          rcases List.cons_lt_cons_iff.1 hxy with hab | ⟨rfl, hlt⟩
          · rcases List.cons_lt_cons_iff.1 hyz with hba | ⟨rfl, -⟩
            · exact absurd hba (Std.Asymm.asymm a b hab)
            · exact absurd hab (Std.Asymm.asymm b b hab)
          · rcases List.cons_lt_cons_iff.1 hyz with haa | ⟨-, hlt'⟩
            · exact absurd haa (Std.Asymm.asymm a a haa)
            · exact List.cons_prefix_cons.2
                ⟨rfl, ih (List.prefix_append _ _) (List.prefix_append _ _) hlt hlt'⟩

end Lists

/-! ## Texts -/

/-- **The UTF-8 bytes of a text.** -/
def bytes (text : String) : List UInt8 :=
  text.toUTF8.data.toList

/-- A text of ASCII characters. -/
def IsAscii (text : String) : Prop :=
  ∀ c ∈ text.toList, c.toNat < 128

instance (text : String) : Decidable (IsAscii text) :=
  List.decidableBAll _ text.toList

lemma isAscii_append {a b : String} (ha : IsAscii a) (hb : IsAscii b) : IsAscii (a ++ b) := by
  intro c hc
  rw [String.toList_append, List.mem_append] at hc
  exact hc.elim (ha c) (hb c)

lemma IsWord.isAscii {text : String} (h : IsWord text) : IsAscii text := by
  intro c hc
  -- the ranges of `isWordChar`, as bounds on code points
  have hword : ((decide (c.val ≥ 'A'.val ∧ c.val ≤ 'Z'.val)
        || (decide (c.val ≥ 'a'.val) && decide (c.val ≤ 'z'.val)))
      || (decide (c.val ≥ '0'.val) && decide (c.val ≤ '9'.val)) || c == '_') = true := h c hc
  simp only [Bool.or_eq_true, Bool.and_eq_true, decide_eq_true_eq, beq_iff_eq,
    UInt32.le_iff_toNat_le, ge_iff_le] at hword
  change (((65 ≤ c.toNat ∧ c.toNat ≤ 90) ∨ (97 ≤ c.toNat ∧ c.toNat ≤ 122))
    ∨ (48 ≤ c.toNat ∧ c.toNat ≤ 57)) ∨ c = '_' at hword
  rcases hword with hrange | rfl
  · omega
  · decide

/-- An ASCII character is one byte. -/
lemma bytes_eq_map {text : String} (h : IsAscii text) : bytes text = text.toList.map Char.toUInt8 := by
  have hchar : ∀ c ∈ text.toList, String.utf8EncodeChar c = [c.toUInt8] := by
    intro c hc
    refine String.utf8EncodeChar_eq_singleton ?_
    rw [Char.utf8Size_eq_one_iff, UInt32.le_iff_toNat_le]
    exact Nat.le_of_lt_succ (h c hc)
  rw [bytes, String.toUTF8_eq_toByteArray, ← String.utf8Encode_toList, List.utf8Encode,
    List.toList_data_toByteArray, List.map_eq_flatMap]
  exact List.flatMap_congr hchar

/-- **Texts in the order of their characters are in the order of their bytes.** -/
theorem bytes_lt_bytes {a b : String} (ha : IsAscii a) (hb : IsAscii b) (h : a < b) :
    bytes a < bytes b := by
  rw [bytes_eq_map ha, bytes_eq_map hb]
  refine map_lt_map (fun c hc c' hc' hlt => ?_) (String.lt_iff.1 h)
  have hmod : ∀ {c : Char}, c.toNat < 128 → c.toUInt8.toNat = c.toNat := fun hc =>
    Nat.mod_eq_of_lt (Nat.lt_trans hc (by decide))
  rw [UInt8.lt_iff_toNat_lt, hmod (ha c hc), hmod (hb c' hc')]
  exact UInt32.lt_iff_toNat_lt.1 hlt

end Netscribe
