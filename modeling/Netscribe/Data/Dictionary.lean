/-!
# Dictionaries in key order

A finite map from strings, kept as a list in strictly ascending key order.  Strings are ordered by
code point, which is also the order of their UTF-8 bytes.  Since the order is part of the type, two
dictionaries with the same entries are equal, and `toList` lists them in the order they are written.

* `Dictionary` — the list and the proof that it ascends.
* `insert` — adds or replaces the value of a key.
* `get?` — the value of a key.
-/

namespace Netscribe

/-- **A dictionary**: entries in strictly ascending order of their keys. -/
structure Dictionary (α : Type) where
  toList : List (String × α)
  /-- Keys ascend strictly, so no key occurs twice. -/
  ascending : toList.Pairwise fun a b => a.1 < b.1
  deriving DecidableEq

namespace Dictionary

variable {α : Type}

def empty : Dictionary α := ⟨[], .nil⟩

instance : Inhabited (Dictionary α) := ⟨empty⟩

/-- Puts an entry at its place in an ascending list, over an entry with the same key. -/
def insertEntry (key : String) (value : α) : List (String × α) → List (String × α)
  | [] => [(key, value)]
  | (k, v) :: rest =>
    if key < k then (key, value) :: (k, v) :: rest
    else if k < key then (k, v) :: insertEntry key value rest
    else (key, value) :: rest

/-- Keys after an insertion are the new key and old keys. -/
theorem mem_insertEntry {key : String} {value : α} {e : String × α} :
    ∀ {l : List (String × α)}, e ∈ insertEntry key value l → e.1 = key ∨ e ∈ l
  | [], h => by
    simp only [insertEntry, List.mem_singleton] at h
    exact .inl (h ▸ rfl)
  | (k, v) :: rest, h => by
    unfold insertEntry at h
    split at h
    · rcases List.mem_cons.1 h with h | h
      · exact .inl (h ▸ rfl)
      · exact .inr h
    · split at h
      · rcases List.mem_cons.1 h with h | h
        · exact .inr (h ▸ List.mem_cons_self)
        · exact (mem_insertEntry h).imp id (List.mem_cons_of_mem _)
      · rcases List.mem_cons.1 h with h | h
        · exact .inl (h ▸ rfl)
        · exact .inr (List.mem_cons_of_mem _ h)

/-- Insertion keeps the keys ascending. -/
theorem insertEntry_ascending (key : String) (value : α) :
    ∀ {l : List (String × α)}, l.Pairwise (fun a b => a.1 < b.1) →
      (insertEntry key value l).Pairwise fun a b => a.1 < b.1
  | [], _ => by simp [insertEntry]
  | (k, v) :: rest, h => by
    have hk := (List.pairwise_cons.1 h).1
    have hr := (List.pairwise_cons.1 h).2
    unfold insertEntry
    split
    · rename_i hlt
      refine List.pairwise_cons.2 ⟨fun e he => ?_, h⟩
      rcases List.mem_cons.1 he with rfl | he
      · exact hlt
      · exact String.lt_trans hlt (hk e he)
    · rename_i hnlt
      split
      · rename_i hgt
        refine List.pairwise_cons.2 ⟨fun e he => ?_, insertEntry_ascending key value hr⟩
        rcases mem_insertEntry he with he | he
        · exact he ▸ hgt
        · exact hk e he
      · rename_i hngt
        have heq : key = k := String.le_antisymm (String.not_lt.1 hngt) (String.not_lt.1 hnlt)
        exact List.pairwise_cons.2 ⟨fun e he => heq ▸ hk e he, hr⟩

/-- **Adds an entry**, in place of one with the same key. -/
def insert (d : Dictionary α) (key : String) (value : α) : Dictionary α :=
  ⟨insertEntry key value d.toList, insertEntry_ascending key value d.ascending⟩

/-- The value of a key. -/
def get? (d : Dictionary α) (key : String) : Option α :=
  (d.toList.find? fun e => e.1 == key).map Prod.snd

/-- The dictionary of a list of entries; of entries with one key the last stays. -/
def ofList (entries : List (String × α)) : Dictionary α :=
  entries.foldl (fun d e => d.insert e.1 e.2) empty

end Dictionary

end Netscribe
