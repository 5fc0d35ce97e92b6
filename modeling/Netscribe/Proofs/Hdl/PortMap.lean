import Mathlib.Data.List.Nodup
import Netscribe.Proofs.Hdl.Reference

/-!
# Keys of a port map

A port is associated under its own name, or under the texts of its elements.  Since no name has a
bracket in it, the name can be read off from each key, and bindings of different ports do not meet.

* `Dictionary.keys`, `Dictionary.mem_keys_insert` — the keys of a dictionary.
* `Binding.elements?` — into how many elements a port is split.
* `PortMap.perm_entries` — the entries of a port are those of its binding.
* `PortMap.Matches` — a port map has what a list of ports asks for.
* **`PortMap.matches_ofBindings`** — bindings of all ports make such a map.
-/

namespace Netscribe

/-! ## Keys -/

namespace Dictionary

variable {α : Type}

def keys (d : Dictionary α) : List String :=
  d.toList.map Prod.fst

@[simp] lemma mem_keys_insertEntry {key k : String} {value : α} {l : List (String × α)} :
    k ∈ (insertEntry key value l).map Prod.fst ↔ k = key ∨ k ∈ l.map Prod.fst := by
  induction l with
  | nil => simp [insertEntry]
  | cons e rest ih =>
      obtain ⟨k', v⟩ := e
      rw [insertEntry]
      split
      · simp
      · next hnlt =>
          split
          · simp only [List.map_cons, List.mem_cons, ih]
            exact or_left_comm
          · next hngt =>
              obtain rfl : key = k' :=
                String.le_antisymm (String.not_lt.1 hngt) (String.not_lt.1 hnlt)
              simp

@[simp] lemma mem_keys_insert {d : Dictionary α} {key k : String} {value : α} :
    k ∈ (d.insert key value).keys ↔ k = key ∨ k ∈ d.keys :=
  mem_keys_insertEntry

/-- What is in a dictionary after an insertion is the new entry, or was there before. -/
lemma mem_of_mem_insertEntry {key : String} {value : α} {e : String × α} {l : List (String × α)}
    (h : e ∈ insertEntry key value l) : e = (key, value) ∨ e ∈ l := by
  induction l with
  | nil => exact .inl (List.mem_singleton.1 h)
  | cons x rest ih =>
      obtain ⟨k, v⟩ := x
      rw [insertEntry] at h
      split at h
      · exact List.mem_cons.1 h
      · split at h
        · rcases List.mem_cons.1 h with rfl | h
          · exact .inr List.mem_cons_self
          · exact (ih h).imp id (List.mem_cons_of_mem _)
        · exact (List.mem_cons.1 h).imp id (List.mem_cons_of_mem _)

/-- **The entry of a key that was inserted** is the new one. -/
lemma eq_of_mem_insertEntry {key : String} {value : α} {e : String × α} {l : List (String × α)}
    (hl : l.Pairwise fun a b => a.1 < b.1) (h : e ∈ insertEntry key value l) (hkey : e.1 = key) :
    e = (key, value) := by
  induction l with
  | nil => exact List.mem_singleton.1 h
  | cons x rest ih =>
      obtain ⟨k, v⟩ := x
      obtain ⟨hrest, htail⟩ := List.pairwise_cons.1 hl
      have hafter : e ∈ rest → k < key := fun he => hkey ▸ hrest e he
      rw [insertEntry] at h
      split at h
      · next hlt =>
          rcases List.mem_cons.1 h with rfl | h
          · rfl
          · rcases List.mem_cons.1 h with rfl | h
            · exact absurd (hkey ▸ hlt) (String.lt_irrefl _)
            · exact absurd (String.lt_trans hlt (hafter h)) (String.lt_irrefl _)
      · split at h
        · next hlt =>
            rcases List.mem_cons.1 h with rfl | h
            · exact absurd (hkey ▸ hlt) (String.lt_irrefl _)
            · exact ih htail h
        · next hnlt =>
            exact (List.mem_cons.1 h).resolve_right fun h => hnlt (hafter h)

/-- No entry is there twice. -/
lemma nodup_toList (d : Dictionary α) : d.toList.Nodup := by
  refine List.Pairwise.imp (fun {a b} hlt => ?_) d.ascending
  rintro rfl
  exact String.lt_irrefl _ hlt

end Dictionary

/-- **Into how many elements a port is split** by its binding, in a language that associates them one
by one. -/
def Binding.elements? (d : Dialect) : Binding → Option ℕ
  | .whole _ => none
  | .bits as => if d = .vhdl ∧ as.length ≠ 1 then some as.length else none

/-- The keys of a port: its name, or the texts of its elements. -/
def Dialect.keysOf (d : Dialect) (name : String) : Option ℕ → List String
  | none => [name]
  | some n => (List.range n).map (d.elementKey name)

lemma Dialect.formals_bitAssociations (d : Dialect) (name : String) {as : List Actual}
    (has : as.length ≠ 1) :
    (d.bitAssociations name as).map (fun a => a.formal.text d)
      = d.keysOf name (Binding.elements? d (.bits as)) := by
  rw [bitAssociations.eq_def]
  split
  · simp at has
  · cases d with
    | vhdl =>
        have hsnd : as.zipIdx.map Prod.snd = List.range as.length := by
          rw [List.zipIdx_map_snd, List.range_eq_range']
        rw [Binding.elements?, if_pos ⟨rfl, has⟩, keysOf, ← hsnd, List.map_map, List.map_map]
        rfl
    | verilog => simp [Binding.elements?, keysOf, Ref.text]

lemma Dialect.formals_associations (d : Dialect) (name : String) (b : Binding) :
    (d.associations name b).map (fun a => a.formal.text d) = d.keysOf name (b.elements? d) := by
  cases b with
  | whole a => rfl
  | bits as =>
      by_cases has : as.length = 1
      · obtain ⟨a, rfl⟩ := List.length_eq_one_iff.1 has
        simp [associations, bitAssociations, Binding.elements?, keysOf, Ref.text]
      · exact d.formals_bitAssociations name has

/-- The formal of an association is its port, or in VHDL an element of it. -/
lemma Dialect.formal_of_mem_associations {d : Dialect} {port : String} {binding : Binding}
    {a : Association} (h : a ∈ d.associations port binding) :
    a.formal = .whole port ∨ d = .vhdl ∧ ∃ i, a.formal = .bit port i := by
  cases binding with
  | whole actual =>
      obtain rfl := List.mem_singleton.1 h
      exact .inl rfl
  | bits actuals =>
      rw [associations, bitAssociations.eq_def] at h
      split at h
      · obtain rfl := List.mem_singleton.1 h
        exact .inl rfl
      · cases d with
        | vhdl =>
            obtain ⟨x, -, rfl⟩ := List.mem_map.1 h
            exact .inr ⟨rfl, x.2, rfl⟩
        | verilog =>
            obtain rfl := List.mem_singleton.1 h
            exact .inl rfl

lemma Dialect.name_formal_of_mem {d : Dialect} {port : String} {binding : Binding} {a : Association}
    (h : a ∈ d.associations port binding) : a.formal.name = port := by
  rcases d.formal_of_mem_associations h with hformal | ⟨-, i, hformal⟩ <;> rw [hformal] <;> rfl

namespace PortMap

variable {d : Dialect} {map : PortMap} {bs : List (String × Binding)} {key name : String}

lemma mem_keys_addAll {entries : List Association} :
    key ∈ (addAll map d entries).keys ↔
      key ∈ entries.map (fun a => a.formal.text d) ∨ key ∈ map.keys := by
  induction entries generalizing map with
  | nil => simp [addAll]
  | cons a entries ih =>
      show key ∈ (addAll (map.insert (a.formal.text d) a) d entries).keys ↔ _
      rw [ih, Dictionary.mem_keys_insert, List.map_cons, List.mem_cons]
      exact or_left_comm.trans or_assoc.symm

/-- The keys of bindings are those of each of them. -/
lemma mem_keys_ofBindings :
    key ∈ (ofBindings d bs).keys ↔ ∃ b ∈ bs, key ∈ d.keysOf b.1 (b.2.elements? d) := by
  rw [ofBindings, mem_keys_addAll, List.map_flatMap]
  simp only [Dialect.formals_associations, List.mem_flatMap]
  exact or_iff_left (by simp [Dictionary.keys, Dictionary.empty])

lemma mem_of_mem_addAll {entries : List Association} {e : String × Association}
    (h : e ∈ (addAll map d entries).toList) :
    (∃ a ∈ entries, e = (a.formal.text d, a)) ∨ e ∈ map.toList := by
  induction entries generalizing map with
  | nil => exact .inr h
  | cons a entries ih =>
      rcases ih h with ⟨a', ha', rfl⟩ | h
      · exact .inl ⟨a', List.mem_cons_of_mem _ ha', rfl⟩
      · rcases Dictionary.mem_of_mem_insertEntry h with rfl | h
        · exact .inl ⟨a, List.mem_cons_self, rfl⟩
        · exact .inr h

/-- **The entry that was added last** under a key takes the place of those before. -/
lemma mem_of_mem_addAll_of_key {entries : List Association} {e : String × Association}
    (h : e ∈ (addAll map d entries).toList)
    (hkey : e.1 ∈ entries.map fun a => a.formal.text d) :
    ∃ a ∈ entries, e = (a.formal.text d, a) := by
  induction entries generalizing map with
  | nil => cases hkey
  | cons a entries ih =>
      have hadded : e ∈ (addAll (map.insert (a.formal.text d) a) d entries).toList := h
      rcases mem_of_mem_addAll hadded with ⟨a', ha', rfl⟩ | hmap
      · exact ⟨a', List.mem_cons_of_mem _ ha', rfl⟩
      · rcases List.mem_cons.1 hkey with hkey | hkey
        · exact ⟨a, List.mem_cons_self,
            Dictionary.eq_of_mem_insertEntry map.ascending hmap hkey⟩
        · obtain ⟨a', ha', heq⟩ := ih h hkey
          exact ⟨a', List.mem_cons_of_mem _ ha', heq⟩

/-- An entry of a port map is one that a binding needs, under the text of its formal. -/
lemma mem_of_mem_ofBindings {e : String × Association} (h : e ∈ (ofBindings d bs).toList) :
    ∃ b ∈ bs, ∃ a ∈ d.associations b.1 b.2, e = (a.formal.text d, a) := by
  rcases mem_of_mem_addAll h with ⟨a, ha, rfl⟩ | h
  · obtain ⟨b, hb, ha⟩ := List.mem_flatMap.1 ha
    exact ⟨b, hb, a, ha, rfl⟩
  · cases h

/-- Of bindings for one key those that come later count. -/
lemma mem_of_mem_ofBindings_append {bs' : List (String × Binding)} {e : String × Association}
    (h : e ∈ (ofBindings d (bs ++ bs')).toList)
    (hkey : ∃ b ∈ bs', e.1 ∈ d.keysOf b.1 (b.2.elements? d)) :
    ∃ b ∈ bs', ∃ a ∈ d.associations b.1 b.2, e = (a.formal.text d, a) := by
  rw [ofBindings, List.flatMap_append, addAll, List.foldl_append] at h
  obtain ⟨a, ha, heq⟩ := mem_of_mem_addAll_of_key h (by
    rw [List.map_flatMap]
    simpa only [Dialect.formals_associations, List.mem_flatMap] using hkey)
  obtain ⟨b, hb, ha⟩ := List.mem_flatMap.1 ha
  exact ⟨b, hb, a, ha, heq⟩

/-! ## Names read off from keys -/

lemma base_whole (h : IsWord name) : d.base name = name :=
  Ref.base_text (r := .whole name) h

lemma base_elementKey (h : IsWord name) (i : ℕ) : d.base (d.elementKey name i) = name :=
  Ref.base_text (r := .bit name i) h

lemma base_of_mem_keysOf (h : IsWord name) {n : Option ℕ} (hkey : key ∈ d.keysOf name n) :
    d.base key = name := by
  cases n with
  | none =>
      obtain rfl := List.mem_singleton.1 hkey
      exact base_whole h
  | some n =>
      obtain ⟨i, -, rfl⟩ := List.mem_map.1 hkey
      exact base_elementKey h i

lemma elementKey_ne (h : IsWord name) (i : ℕ) : d.elementKey name i ≠ name := by
  intro heq
  have := Ref.text_injective (d := d) (r := .bit name i) (s := .whole name) h h heq
  cases this

/-- The keys of a port without elements are its name. -/
lemma eq_none_of_mem_keysOf (h : IsWord name) {n : Option ℕ} (hkey : name ∈ d.keysOf name n) :
    n = none := by
  cases n with
  | none => rfl
  | some n =>
      obtain ⟨i, -, hi⟩ := List.mem_map.1 hkey
      exact absurd hi (elementKey_ne h i)

/-! ## Entries of one port -/

lemma keysOf_nodup (h : IsWord name) (n : Option ℕ) : (d.keysOf name n).Nodup := by
  cases n with
  | none => exact List.nodup_singleton _
  | some n =>
      refine List.nodup_range.map fun i j hij => ?_
      exact (Ref.bit.inj (Ref.text_injective (r := .bit name i) (s := .bit name j) h h hij)).2

lemma base_of_mem_associations (h : IsWord name) {b : Binding} {a : Association}
    (ha : a ∈ d.associations name b) : d.base (a.formal.text d) = name := by
  refine base_of_mem_keysOf h (n := b.elements? d) ?_
  rw [← d.formals_associations]
  exact List.mem_map_of_mem ha

/-- The entries of a port: those whose keys have its name. -/
def entries (d : Dialect) (map : PortMap) (name : String) : List Association :=
  (map.toList.filter fun e => d.base e.1 == name).map Prod.snd

/-- **The entries of a port** that is bound once are those that its binding needs. -/
theorem perm_entries (hword : ∀ b ∈ bs, IsWord b.1) {b : String × Binding} (hb : b ∈ bs)
    (hone : ∀ b' ∈ bs, b'.1 = b.1 → b' = b) :
    ((ofBindings d bs).entries d b.1).Perm (d.associations b.1 b.2) := by
  have hbase : ∀ {b'}, b' ∈ bs → ∀ {a}, a ∈ d.associations b'.1 b'.2 →
      d.base (a.formal.text d) = b'.1 := fun hb' _ ha => base_of_mem_associations (hword _ hb') ha
  have hkeys : ((d.associations b.1 b.2).map fun a => a.formal.text d).Nodup := by
    rw [d.formals_associations]
    exact keysOf_nodup (hword b hb) _
  -- an entry whose key has the name is one of this binding
  have hown : ∀ e, e ∈ (ofBindings d bs).toList → d.base e.1 = b.1 →
      ∃ a ∈ d.associations b.1 b.2, e = (a.formal.text d, a) := by
    intro e he hname
    obtain ⟨b', hb', a, ha, rfl⟩ := mem_of_mem_ofBindings he
    obtain rfl := hone b' hb' ((hbase hb' ha).symm.trans hname)
    exact ⟨a, ha, rfl⟩
  have hperm : ((ofBindings d bs).toList.filter fun e => d.base e.1 == b.1).Perm
      ((d.associations b.1 b.2).map fun a => (a.formal.text d, a)) := by
    refine (List.perm_ext_iff_of_nodup ((ofBindings d bs).nodup_toList.filter _)
      (List.Nodup.of_map Prod.fst (by rwa [List.map_map]))).2 fun e => ?_
    rw [List.mem_filter, beq_iff_eq, List.mem_map]
    constructor
    · rintro ⟨he, hname⟩
      obtain ⟨a, ha, rfl⟩ := hown e he hname
      exact ⟨a, ha, rfl⟩
    · rintro ⟨a, ha, rfl⟩
      -- there is an entry with this key, and it is no other
      have hkey : a.formal.text d ∈ (ofBindings d bs).keys := by
        refine mem_keys_ofBindings.2 ⟨b, hb, ?_⟩
        rw [← d.formals_associations]
        exact List.mem_map_of_mem ha
      obtain ⟨e, he, hek⟩ := List.mem_map.1 hkey
      obtain ⟨a', ha', rfl⟩ := hown e he (hek ▸ hbase hb ha)
      obtain rfl := List.inj_on_of_nodup_map hkeys ha' ha hek
      exact ⟨he, hbase hb ha⟩
  have hsnd := hperm.map Prod.snd
  rw [List.map_map] at hsnd
  exact hsnd.trans (.of_eq (List.map_id _))

/-! ## Ports -/

/-- **A port map has what ports ask for**: a key for each of them and no others.  If the ports have
different names, none is associated both as a whole and by element, and one that is associated by
element has a key for each element and no others; `width` says how many it may have. -/
structure Matches (d : Dialect) (map : PortMap) (names : List String) (width : String → ℕ → Prop) :
    Prop where
  bases : ∀ name, (∃ key ∈ map.keys, d.base key = name) ↔ name ∈ names
  /-- Not as a whole and by element. -/
  oneWay : names.Nodup → ∀ name ∈ names, name ∈ map.keys → ∀ i, d.elementKey name i ∉ map.keys
  /-- By element, all of them. -/
  elements : names.Nodup → ∀ name ∈ names, ∀ i, d.elementKey name i ∈ map.keys →
    ∃ w, width name w
      ∧ ∀ key, (key ∈ map.keys ∧ d.base key = name) ↔ ∃ j < w, key = d.elementKey name j

variable {names : List String} {width : String → ℕ → Prop}

/-- A key with the name of a port is one of the port's own, where names are different. -/
lemma mem_keysOf_of_base (hnodup : (bs.map Prod.fst).Nodup) (hword : ∀ b ∈ bs, IsWord b.1)
    {b : String × Binding} (hb : b ∈ bs) (hkey : key ∈ (ofBindings d bs).keys)
    (hbase : d.base key = b.1) : key ∈ d.keysOf b.1 (b.2.elements? d) := by
  obtain ⟨b', hb', hkey⟩ := mem_keys_ofBindings.1 hkey
  have hname : b'.1 = b.1 := (base_of_mem_keysOf (hword b' hb') hkey).symm.trans hbase
  rwa [List.inj_on_of_nodup_map hnodup hb' hb hname] at hkey

/-- **Bindings of all ports make a map that matches the ports**, if none of them is split into
nothing. -/
theorem matches_ofBindings (hperm : (bs.map Prod.fst).Perm names) (hword : ∀ name ∈ names, IsWord name)
    (hbits : ∀ b ∈ bs, ∀ as, b.2 = .bits as →
      0 < as.length ∧ (as.length ≠ 1 → width b.1 as.length)) :
    (ofBindings d bs).Matches d names width := by
  have hword' : ∀ b ∈ bs, IsWord b.1 := fun b hb =>
    hword b.1 (hperm.subset (List.mem_map_of_mem hb))
  have hwidth : ∀ b ∈ bs, ∀ n, b.2.elements? d = some n → 0 < n ∧ width b.1 n := by
    intro b hb n hn
    cases hb2 : b.2 with
    | whole a => simp [hb2, Binding.elements?] at hn
    | bits as =>
        rw [hb2, Binding.elements?] at hn
        split at hn
        · next hsplit =>
            obtain rfl := Option.some.inj hn
            obtain ⟨hpos, hlen⟩ := hbits b hb as hb2
            exact ⟨hpos, hlen hsplit.2⟩
        · cases hn
  refine ⟨fun name => ?_, fun hnodup name hname hwhole i helement => ?_,
    fun hnodup name hname i helement => ?_⟩
  · rw [← hperm.mem_iff]
    constructor
    · rintro ⟨key, hkey, rfl⟩
      obtain ⟨b, hb, hkey⟩ := mem_keys_ofBindings.1 hkey
      rw [base_of_mem_keysOf (hword' b hb) hkey]
      exact List.mem_map_of_mem hb
    · intro hname
      obtain ⟨b, hb, rfl⟩ := List.mem_map.1 hname
      cases hn : b.2.elements? d with
      | none =>
          refine ⟨b.1, mem_keys_ofBindings.2 ⟨b, hb, ?_⟩, base_whole (hword' b hb)⟩
          simp [hn, Dialect.keysOf]
      | some n =>
          refine ⟨d.elementKey b.1 0, mem_keys_ofBindings.2 ⟨b, hb, ?_⟩,
            base_elementKey (hword' b hb) 0⟩
          rw [hn]
          exact List.mem_map_of_mem (List.mem_range.2 (hwidth b hb n hn).1)
  · obtain ⟨b, hb, rfl⟩ := List.mem_map.1 (hperm.mem_iff.2 hname)
    have hnodup := hperm.nodup_iff.2 hnodup
    have hwhole := mem_keysOf_of_base hnodup hword' hb hwhole (base_whole (hword' b hb))
    have helement := mem_keysOf_of_base hnodup hword' hb helement (base_elementKey (hword' b hb) i)
    rw [eq_none_of_mem_keysOf (hword' b hb) hwhole] at helement
    exact elementKey_ne (hword' b hb) i (List.mem_singleton.1 helement)
  · obtain ⟨b, hb, rfl⟩ := List.mem_map.1 (hperm.mem_iff.2 hname)
    have hnodup := hperm.nodup_iff.2 hnodup
    have helement := mem_keysOf_of_base hnodup hword' hb helement (base_elementKey (hword' b hb) i)
    cases hn : b.2.elements? d with
    | none =>
        rw [hn] at helement
        exact absurd (List.mem_singleton.1 helement) (elementKey_ne (hword' b hb) i)
    | some n =>
        refine ⟨n, (hwidth b hb n hn).2, fun key => ⟨fun h => ?_, ?_⟩⟩
        · have hkey := mem_keysOf_of_base hnodup hword' hb h.1 h.2
          rw [hn] at hkey
          obtain ⟨j, hj, rfl⟩ := List.mem_map.1 hkey
          exact ⟨j, List.mem_range.1 hj, rfl⟩
        · rintro ⟨j, hj, rfl⟩
          refine ⟨mem_keys_ofBindings.2 ⟨b, hb, ?_⟩, base_elementKey (hword' b hb) j⟩
          rw [hn]
          exact List.mem_map_of_mem (List.mem_range.2 hj)

end PortMap

end Netscribe
