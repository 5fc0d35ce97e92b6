import Netscribe.Proofs.Board.Ownership
import Netscribe.Proofs.Circuit.Declared

/-!
# Bubbles on a board

The first resource that owns a bubble decides what the bubble is bound to.  On an accepted board it
is the only one, so that the order of the resources does not matter.  The bits of the bubble port are
bound one by one, in either language; only a pin whose label is the name of that port can take its
place in the port map.

* `Board.Resource.Carries` — the pin that a bubble belongs to.
* `Project.owner_unique`, `Board.bubble?_perm` — one owner, in whatever order.
* `Association.BindsBit` — what an entry of a port map binds a bit of its port to.
* `Netlist.boardBindings_bindsBit`, `Netlist.boardBindings_bindsBit_of_pin` — the bits of the bubble
  port, and what becomes of them where a pin takes its place.
* **`Project.check_binds`** — an accepted project binds its bubbles unambiguously.
-/

namespace Netscribe

/-! ## Owners -/

namespace Board

variable {b b' : Board} {r : Resource} {bubble : UInt32} {pin : Pin}

/-- **A resource carries a bubble on a pin.** -/
def Resource.Carries (r : Resource) (bubble : UInt32) (pin : Pin) : Prop :=
  ∃ index, r.pinOf? bubble = some index ∧ r.pin? index = some pin

namespace Resource

lemma bind_pin?_eq_some_iff : (r.pinOf? bubble).bind r.pin? = some pin ↔ r.Carries bubble pin :=
  Option.bind_eq_some_iff

/-- A bubble that is owned belongs to a pin. -/
lemma Owns.exists_carries (h : r.Owns bubble) : ∃ pin, r.Carries bubble pin := by
  obtain ⟨index, hindex⟩ := Option.isSome_iff_exists.1 h
  have hlt := (pinOf?_eq_some_iff.1 hindex).2
  exact ⟨r.pins[index], index, hindex, List.getElem?_eq_getElem hlt⟩

lemma Carries.owns (h : r.Carries bubble pin) : r.Owns bubble := by
  obtain ⟨index, hindex, -⟩ := h
  rw [Owns, hindex]
  rfl

lemma Carries.mem (h : r.Carries bubble pin) : pin ∈ r.pins := by
  obtain ⟨index, -, hpin⟩ := h
  exact List.mem_of_getElem? hpin

end Resource

/-- What a resource binds a bubble to, where it owns the bubble. -/
def Resource.mapping? (r : Resource) (bubble : UInt32) : Option Mapping :=
  ((r.pinOf? bubble).bind r.pin?).map Pin.mapping

lemma Resource.mapping?_eq_some_iff {mapping : Mapping} :
    r.mapping? bubble = some mapping ↔ ∃ pin, r.Carries bubble pin ∧ pin.mapping = mapping := by
  rw [mapping?, Option.map_eq_some_iff]
  simp only [bind_pin?_eq_some_iff]

lemma Resource.mapping?_eq_none_iff : r.mapping? bubble = none ↔ ¬ r.Owns bubble := by
  rw [Option.eq_none_iff_forall_ne_some]
  constructor
  · intro h howns
    obtain ⟨pin, hpin⟩ := howns.exists_carries
    exact h _ (mapping?_eq_some_iff.2 ⟨pin, hpin, rfl⟩)
  · intro h mapping hmapping
    obtain ⟨pin, hpin, -⟩ := mapping?_eq_some_iff.1 hmapping
    exact h hpin.owns

lemma bubble?_eq (b : Board) (bubble : UInt32) :
    b.bubble? bubble = b.resources.findSome? fun r => r.mapping? bubble := rfl

/-- No resource counts for a bubble but its owner. -/
lemma pairwise_mapping? (happart : b.resources.Pairwise fun r s => r.overlaps s = false)
    (bubble : UInt32) : b.resources.Pairwise fun r s =>
      r.mapping? bubble = none ∨ s.mapping? bubble = none := by
  refine happart.imp fun {r s} happart => ?_
  rw [Resource.mapping?_eq_none_iff, Resource.mapping?_eq_none_iff, ← not_and_or]
  rintro ⟨hr, hs⟩
  cases happart.symm.trans (Resource.overlaps_of_owns hr hs)

/-- **The order of the resources does not matter**, where no two of them overlap. -/
theorem bubble?_perm (happart : b.resources.Pairwise fun r s => r.overlaps s = false)
    (hperm : b.resources.Perm b'.resources) : b'.bubble? = b.bubble? :=
  funext fun bubble => (findSome?_perm (pairwise_mapping? happart bubble) hperm).symm

lemma bubble?_eq_none_iff :
    b.bubble? bubble = none ↔ ∀ r ∈ b.resources, ¬ r.Owns bubble := by
  rw [bubble?_eq, List.findSome?_eq_none_iff]
  simp only [Resource.mapping?_eq_none_iff]

/-- **A bubble is bound to what its pin says**, where no two resources overlap. -/
lemma bubble?_eq_some_iff (happart : b.resources.Pairwise fun r s => r.overlaps s = false)
    {mapping : Mapping} : b.bubble? bubble = some mapping ↔
      ∃ r ∈ b.resources, ∃ pin, r.Carries bubble pin ∧ pin.mapping = mapping := by
  rw [bubble?_eq, findSome?_eq_some_iff_of_pairwise (pairwise_mapping? happart bubble)]
  simp only [Resource.mapping?_eq_some_iff]

namespace Pin

/-- A pin that is not both open and mapped gives its name, if it has one. -/
lemma mapping_eq_pin_iff (h : ¬ (pin.isOpen = true ∧ pin.name.isSome = true)) {name : String}
    {inverted : Bool} : pin.mapping = .pin name inverted ↔
      pin.name = some name ∧ pin.inverted = inverted := by
  rw [mapping]
  cases hname : pin.name with
  | none => simp
  | some n =>
      have hopen : pin.isOpen = false := by
        rw [← Bool.not_eq_true]
        exact fun hopen => h ⟨hopen, by rw [hname]; rfl⟩
      simp [hopen]

lemma mapping_eq_opened_iff (h : ¬ (pin.isOpen = true ∧ pin.name.isSome = true)) :
    pin.mapping = .opened ↔ pin.name = none := by
  cases hname : pin.name with
  | none => simp [mapping, hname]
  | some n =>
      rw [(mapping_eq_pin_iff h).2 ⟨hname, rfl⟩]
      simp

end Pin

end Board

/-! ## Accepted projects -/

namespace Project

variable {p : Project}

lemma apart_of_check (h : p.check = .ok ()) :
    p.board.resources.Pairwise fun a b => a.overlaps b = false :=
  (check_eq_ok_iff.1 h).2.2

/-- **A bubble has one owner at most**, by its place among the resources. -/
theorem owner_unique (h : p.check = .ok ()) {bubble : UInt32} {i j : ℕ} {a b : Board.Resource}
    (ha : p.board.resources[i]? = some a) (hb : p.board.resources[j]? = some b)
    (hown : a.Owns bubble) (hown' : b.Owns bubble) : i = j := by
  by_contra hij
  exact Board.not_pairwise_overlaps_iff.2
    ⟨i, j, a, b, hij, ha, hb, Board.Resource.overlaps_of_owns hown hown'⟩ (apart_of_check h)

/-- No pin of an accepted project is both open and mapped. -/
lemma not_openAndMapped (h : p.check = .ok ()) {r : Board.Resource}
    (hr : r ∈ p.board.resources) {bubble : UInt32} {pin : Board.Pin}
    (hpin : r.Carries bubble pin) : ¬ (pin.isOpen = true ∧ pin.name.isSome = true) :=
  (Board.Resource.check_eq_ok_iff.1 ((check_eq_ok_iff.1 h).2.1 r hr)).2 pin hpin.mem

/-- **A bubble is bound to a name** exactly if its pin has that name, inverted if the pin is. -/
theorem bubble?_eq_pin_iff (h : p.check = .ok ()) {bubble : UInt32} {name : String}
    {inverted : Bool} : p.board.bubble? bubble = some (.pin name inverted) ↔
      ∃ r ∈ p.board.resources, ∃ pin, r.Carries bubble pin
        ∧ pin.name = some name ∧ pin.inverted = inverted := by
  rw [Board.bubble?_eq_some_iff (apart_of_check h)]
  refine exists_congr fun r => and_congr_right fun hr => exists_congr fun pin =>
    and_congr_right fun hpin => ?_
  exact Board.Pin.mapping_eq_pin_iff (not_openAndMapped h hr hpin)

/-- **A bubble is left open** exactly if its pin has no name. -/
theorem bubble?_eq_opened_iff (h : p.check = .ok ()) {bubble : UInt32} :
    p.board.bubble? bubble = some .opened ↔
      ∃ r ∈ p.board.resources, ∃ pin, r.Carries bubble pin ∧ pin.name = none := by
  rw [Board.bubble?_eq_some_iff (apart_of_check h)]
  refine exists_congr fun r => and_congr_right fun hr => exists_congr fun pin =>
    and_congr_right fun hpin => ?_
  exact Board.Pin.mapping_eq_opened_iff (not_openAndMapped h hr hpin)

end Project

/-! ## Bits of a port -/

/-- **What an entry of a port map binds a bit of a port to**: a port of one bit stands alone; of a
wider one, VHDL has an entry for each element, and Verilog puts all bits into one entry, in which
the lowest comes last. -/
inductive Association.BindsBit (d : Dialect) (port : String) (width : ℕ) :
    Association → ℕ → Actual → Prop
  | alone {actual} : width = 1 → BindsBit d port width ⟨.whole port, .single actual⟩ 0 actual
  | element {n actual} : d = .vhdl → 1 < width →
      BindsBit d port width ⟨.bit port n, .single actual⟩ n actual
  | concatenation {actuals n actual} : d = .verilog → 1 < width → actuals.length = width →
      actuals.reverse[n]? = some actual →
      BindsBit d port width ⟨.whole port, .concatenation actuals⟩ n actual

section Bits

variable {d : Dialect} {port : String} {width n : ℕ} {actual : Actual} {actuals : List Actual}

lemma Association.BindsBit.name_formal {a : Association} (h : a.BindsBit d port width n actual) :
    a.formal.name = port := by
  cases h <;> rfl

/-- **The entries of a port that is bound bit by bit** bind each bit to what stands at its place. -/
theorem Dialect.bindsBit_bitAssociations (port : String) (hpos : 0 < actuals.length) :
    (∃ a ∈ d.bitAssociations port actuals, a.BindsBit d port actuals.length n actual)
      ↔ actuals[n]? = some actual := by
  rw [bitAssociations.eq_def]
  split
  · next only =>
      constructor
      · rintro ⟨a, ha, hbinds⟩
        obtain rfl := List.mem_singleton.1 ha
        cases hbinds
        rfl
      · intro h
        obtain ⟨hlt, rfl⟩ := List.getElem?_eq_some_iff.1 h
        obtain rfl : n = 0 := by simpa using hlt
        exact ⟨_, List.mem_singleton_self _, .alone rfl⟩
  · next hmany =>
      have hwide : 1 < actuals.length := by
        refine Nat.lt_of_le_of_ne hpos fun hone => ?_
        obtain ⟨only, rfl⟩ := List.length_eq_one_iff.1 hone.symm
        exact hmany only rfl
      cases d with
      | vhdl =>
          constructor
          · rintro ⟨a, ha, hbinds⟩
            obtain ⟨⟨x, i⟩, hx, rfl⟩ := List.mem_map.1 ha
            cases hbinds with
            | element _ _ => exact List.mem_zipIdx_iff_getElem?.1 hx
          · intro h
            have hmem : (actual, n) ∈ actuals.zipIdx := List.mem_zipIdx_iff_getElem?.2 h
            exact ⟨_, List.mem_map_of_mem hmem, .element rfl hwide⟩
      | verilog =>
          constructor
          · rintro ⟨a, ha, hbinds⟩
            obtain rfl := List.mem_singleton.1 ha
            cases hbinds with
            | concatenation _ _ _ h => rwa [List.reverse_reverse] at h
          · intro h
            refine ⟨_, List.mem_singleton_self _, .concatenation rfl hwide (by simp) ?_⟩
            rwa [List.reverse_reverse]

/-- An entry stays in a port map if every other one that is made for its key is the same. -/
lemma PortMap.mem_ofBindings {bs : List (String × Binding)} {b : String × Binding} (hb : b ∈ bs)
    {a : Association} (ha : a ∈ d.associations b.1 b.2)
    (hone : ∀ b' ∈ bs, ∀ a' ∈ d.associations b'.1 b'.2,
      a'.formal.text d = a.formal.text d → a' = a) :
    (a.formal.text d, a) ∈ (ofBindings d bs).toList := by
  have hkey : a.formal.text d ∈ (ofBindings d bs).keys := by
    refine mem_keys_ofBindings.2 ⟨b, hb, ?_⟩
    rw [← d.formals_associations]
    exact List.mem_map_of_mem ha
  obtain ⟨e, he, hek⟩ := List.mem_map.1 hkey
  obtain ⟨b', hb', a', ha', rfl⟩ := mem_of_mem_ofBindings he
  obtain rfl := hone b' hb' a' ha' hek
  exact he

end Bits

/-! ## The top circuit on a board -/

namespace Netlist

variable {nl : Netlist} {board : Board} {d : Dialect}

/-- What is bound on a board depends on its bubbles alone. -/
lemma boardBindings_congr {board' : Board} (h : board'.bubble? = board.bubble?) :
    nl.boardBindings board' = nl.boardBindings board := by
  rw [boardBindings, boardBindings, boardWarnings, boardWarnings, boardBubbles, boardBubbles, h]

/-- **What is reported on a board** are the bubbles without an owner, in ascending order. -/
lemma exists_boardWarnings (nl : Netlist) (board : Board) :
    ∃ unowned : List ℕ, unowned.Pairwise (· < ·)
      ∧ (∀ n, n ∈ unowned ↔
        n < nl.inoutBubbles.toNat ∧ ∀ r ∈ board.resources, ¬ r.Owns (.ofNat n))
      ∧ nl.boardWarnings board = unowned.map .unownedBubble := by
  refine ⟨(List.range nl.inoutBubbles.toNat).filter fun n => (board.bubble? (.ofNat n)).isNone,
    List.pairwise_lt_range.filter _, fun n => ?_, ?_⟩
  · rw [List.mem_filter, List.mem_range, Option.isNone_iff_eq_none, Board.bubble?_eq_none_iff]
  · rw [boardWarnings, inoutBubbleList, List.filter_map, List.map_map]
    refine List.map_congr_left fun n hn => ?_
    have hlt := List.mem_range.1 (List.mem_of_mem_filter hn)
    have hword : n < UInt32.size := Nat.lt_trans hlt nl.inoutBubbles.toNat_lt
    exact congrArg Warning.unownedBubble (UInt32.toNat_ofNat_of_lt' hword)

/-- The bubbles of a board, one after the other. -/
def bubbleActuals (nl : Netlist) (board : Board) : List Actual :=
  nl.inoutBubbleList.map fun b => bubbleActual (board.bubble? b)

lemma length_bubbleActuals : (nl.bubbleActuals board).length = nl.inoutBubbles.toNat := by
  simp [bubbleActuals, inoutBubbleList]

lemma getElem?_bubbleActuals {n : ℕ} (hn : n < nl.inoutBubbles.toNat) :
    (nl.bubbleActuals board)[n]? = some (bubbleActual (board.bubble? (.ofNat n))) := by
  simp [bubbleActuals, inoutBubbleList, hn]

/-- **What is bound under the name of the bubble port** are its bits, or a pin with that name. -/
lemma boardBindings_inoutBubbles {bindings : List (String × Binding)}
    (h : (nl.boardBindings board).outcome = .ok bindings) {b : String × Binding} (hb : b ∈ bindings)
    (hname : b.1 = Names.inoutBubbles) :
    b.2 = .bits (nl.bubbleActuals board)
      ∨ (∃ actual, b.2 = .whole actual) ∧ Names.inoutBubbles ∈ nl.identifiers := by
  obtain rfl := Except.ok.inj h
  have hbus : ∀ bus count, bus ≠ Names.inoutBubbles → b ∉ boardBus bus count := by
    intro bus count hbus hmem
    obtain ⟨-, hmem⟩ := List.mem_ite_nil_right.1 hmem
    obtain rfl := List.mem_singleton.1 hmem
    exact hbus hname
  rw [List.mem_append, List.mem_append, List.mem_append, List.mem_append] at hb
  rcases hb with (((hb | hb) | hb) | hb) | hb
  · have hclock := List.mem_map_of_mem (f := Prod.fst) hb
    rw [map_fst_clockBindings, hname, clockNames, List.mem_append] at hclock
    rcases hclock with hclock | hclock
    · obtain ⟨tree, -, htree⟩ := List.mem_map.1 hclock
      exact absurd htree (Names.clockTree_ne (by simp))
    · obtain ⟨-, hclock⟩ := List.mem_ite_nil_right.1 hclock
      exact absurd (List.mem_singleton.1 hclock) (by decide)
  · exact absurd hb (hbus Names.inputBubbles _ (by decide))
  · exact absurd hb (hbus Names.outputBubbles _ (by decide))
  · obtain ⟨-, hb⟩ := List.mem_ite_nil_right.1 hb
    obtain rfl := List.mem_singleton.1 hb
    exact .inl rfl
  · obtain ⟨⟨port, width⟩, hport, rfl⟩ := List.mem_map.1 hb
    refine .inr ⟨⟨_, rfl⟩, ?_⟩
    rw [← hname]
    exact List.mem_map_of_mem hport

lemma mem_boardBindings_inoutBubbles {bindings : List (String × Binding)}
    (h : (nl.boardBindings board).outcome = .ok bindings) (hpos : 0 < nl.inoutBubbles.toNat) :
    (Names.inoutBubbles, .bits (nl.bubbleActuals board)) ∈ bindings := by
  obtain rfl := Except.ok.inj h
  refine List.mem_append_left _ (List.mem_append_right _ ?_)
  have hpos : 0 < nl.inoutBubbles := UInt32.lt_iff_toNat_lt.2 hpos
  rw [boardBubbles, if_pos hpos]
  exact List.mem_singleton_self _

/-- **Each bit of the bubble port is bound to its bubble**, unless a pin has the name of the port and
the port is not split into elements. -/
theorem boardBindings_bindsBit {bindings : List (String × Binding)}
    (h : (nl.boardBindings board).outcome = .ok bindings) {n : ℕ} (hn : n < nl.inoutBubbles.toNat)
    (hown : (d = .vhdl ∧ 1 < nl.inoutBubbles.toNat) ∨ Names.inoutBubbles ∉ nl.identifiers)
    {actual : Actual} :
    (∃ e ∈ (PortMap.ofBindings d bindings).toList,
        e.2.BindsBit d Names.inoutBubbles nl.inoutBubbles.toNat n actual)
      ↔ actual = bubbleActual (board.bubble? (.ofNat n)) := by
  have hpos : 0 < (nl.bubbleActuals board).length := by
    rw [length_bubbleActuals]
    omega
  have hword : ∀ {b}, b ∈ bindings → IsWord b.1 := fun hb =>
    isWord_of_mem_ports ((perm_boardBindings h).subset (List.mem_map_of_mem hb))
  have hbubble : actual = bubbleActual (board.bubble? (.ofNat n))
      ↔ (nl.bubbleActuals board)[n]? = some actual := by
    rw [getElem?_bubbleActuals hn, Option.some_inj, eq_comm]
  rw [hbubble, ← Dialect.bindsBit_bitAssociations (d := d) Names.inoutBubbles hpos,
    length_bubbleActuals]
  constructor
  · rintro ⟨e, he, hbinds⟩
    obtain ⟨b, hb, a, ha, rfl⟩ := PortMap.mem_of_mem_ofBindings he
    have hname : b.1 = Names.inoutBubbles :=
      (Dialect.name_formal_of_mem ha).symm.trans hbinds.name_formal
    rcases boardBindings_inoutBubbles h hb hname with hbits | ⟨⟨actual', hwhole⟩, hpin⟩
    · rw [hbits, hname] at ha
      exact ⟨a, ha, hbinds⟩
    · -- a pin binds the port as a whole, and no element of it
      obtain ⟨rfl, hwide⟩ := hown.resolve_right fun hno => hno hpin
      rw [hwhole, hname] at ha
      obtain rfl := List.mem_singleton.1 ha
      cases hbinds with
      | alone hone => omega
  · rintro ⟨a, ha, hbinds⟩
    have hmem := mem_boardBindings_inoutBubbles h (by omega)
    refine ⟨_, PortMap.mem_ofBindings hmem ha fun b' hb' a' ha' htext => ?_, hbinds⟩
    have hname := Dialect.name_formal_of_mem
      (show a ∈ d.associations Names.inoutBubbles (.bits (nl.bubbleActuals board)) from ha)
    have hname' := Dialect.name_formal_of_mem ha'
    have hformal : a'.formal = a.formal :=
      Ref.text_injective (hname'.symm ▸ hword hb') (hname.symm ▸ hword hmem) htext
    have hport : b'.1 = Names.inoutBubbles := by
      rw [← hname', hformal, hname]
    rcases boardBindings_inoutBubbles h hb' hport with hbits | ⟨⟨actual', hwhole⟩, hpin⟩
    · have hkeys : ((d.associations Names.inoutBubbles (.bits (nl.bubbleActuals board))).map
          fun a => a.formal.text d).Nodup := by
        rw [d.formals_associations]
        exact PortMap.keysOf_nodup (hword hmem) _
      rw [hbits, hport] at ha'
      exact List.inj_on_of_nodup_map hkeys ha' ha htext
    · obtain ⟨rfl, hwide⟩ := hown.resolve_right fun hno => hno hpin
      rw [hwhole, hport] at ha'
      obtain rfl := List.mem_singleton.1 ha'
      cases hbinds with
      | alone hone => omega
      | element _ _ => cases hformal
      | concatenation hd => cases hd

/-- **A pin with the name of the bubble port takes its place**: the pins are bound last. -/
lemma eq_of_mem_boardBindings {bindings : List (String × Binding)}
    (h : (nl.boardBindings board).outcome = .ok bindings)
    (hpin : Names.inoutBubbles ∈ nl.identifiers) {e : String × Association}
    (he : e ∈ (PortMap.ofBindings d bindings).toList) (hkey : e.1 = Names.inoutBubbles) :
    e.2 = ⟨.whole Names.inoutBubbles, .single (.ref (.whole (Names.onBoard Names.inoutBubbles)))⟩ := by
  obtain rfl := Except.ok.inj h
  obtain ⟨⟨_, width⟩, hport, rfl⟩ := List.mem_map.1 hpin
  obtain ⟨b, hb, a, ha, rfl⟩ := PortMap.mem_of_mem_ofBindings_append he
    ⟨_, List.mem_map_of_mem hport, List.mem_singleton.2 hkey⟩
  obtain ⟨⟨port, width'⟩, -, rfl⟩ := List.mem_map.1 hb
  obtain rfl := List.mem_singleton.1 ha
  obtain rfl : port = Names.inoutBubbles := hkey
  rfl

/-- **What the bits are bound to where a pin takes their place**: nothing, or the signal of the pin
where there is one bit only. -/
theorem boardBindings_bindsBit_of_pin {bindings : List (String × Binding)}
    (h : (nl.boardBindings board).outcome = .ok bindings) {n : ℕ} (hn : n < nl.inoutBubbles.toNat)
    (hwhole : ¬ (d = .vhdl ∧ 1 < nl.inoutBubbles.toNat)) (hpin : Names.inoutBubbles ∈ nl.identifiers)
    {actual : Actual} :
    (∃ e ∈ (PortMap.ofBindings d bindings).toList,
        e.2.BindsBit d Names.inoutBubbles nl.inoutBubbles.toNat n actual)
      ↔ nl.inoutBubbles.toNat = 1
        ∧ actual = .ref (.whole (Names.onBoard Names.inoutBubbles)) := by
  constructor
  · rintro ⟨e, he, hbinds⟩
    obtain ⟨b, -, a, -, rfl⟩ := PortMap.mem_of_mem_ofBindings he
    have hformal : a.formal = .whole Names.inoutBubbles := by
      cases hbinds with
      | alone _ => rfl
      | element hd hwide => exact absurd ⟨hd, hwide⟩ hwhole
      | concatenation _ _ _ _ => rfl
    have hpinned := eq_of_mem_boardBindings h hpin he (by rw [hformal]; rfl)
    dsimp only at hpinned hbinds
    rw [hpinned] at hbinds
    cases hbinds with
    | alone hone => exact ⟨hone, rfl⟩
  · rintro ⟨hone, rfl⟩
    have hkey : Names.inoutBubbles ∈ (PortMap.ofBindings d bindings).keys := by
      refine PortMap.mem_keys_ofBindings.2
        ⟨bindOnBoard Names.inoutBubbles, ?_, List.mem_singleton_self _⟩
      obtain rfl := Except.ok.inj h
      obtain ⟨⟨_, width⟩, hport, rfl⟩ := List.mem_map.1 hpin
      exact List.mem_append_right _ (List.mem_map_of_mem hport)
    obtain ⟨e, he, hname⟩ := List.mem_map.1 hkey
    obtain rfl : n = 0 := by omega
    exact ⟨e, he, eq_of_mem_boardBindings h hpin he hname ▸ .alone hone⟩

end Netlist

/-! ## Accepted projects on a board -/

namespace Project

variable {p : Project}

/-- **An accepted project binds its bubbles unambiguously.**  A bubble has one owner at most, and is
bound as the owner's pin says.  So the order of the resources does not matter for what the ports of a
circuit are bound to on the board, nor for what is reported: the bubbles without an owner, one after
the other.  Each bit of the bubble port is bound to its bubble, unless the port is not split into
elements and a pin has its name.  Such a pin takes the place of the port: then no bit is bound, or the
only one to the signal of the pin. -/
theorem check_binds (haccepted : p.check = .ok ()) :
    (∀ (bubble : UInt32) (i j : ℕ) (a b : Board.Resource),
      p.board.resources[i]? = some a → p.board.resources[j]? = some b →
      a.Owns bubble → b.Owns bubble → i = j)
    ∧ (∀ bubble,
      (p.board.bubble? bubble = none ↔ ∀ r ∈ p.board.resources, ¬ r.Owns bubble)
      ∧ (∀ name inverted, p.board.bubble? bubble = some (.pin name inverted) ↔
        ∃ r ∈ p.board.resources, ∃ pin, r.Carries bubble pin
          ∧ pin.name = some name ∧ pin.inverted = inverted)
      ∧ (p.board.bubble? bubble = some .opened ↔
        ∃ r ∈ p.board.resources, ∃ pin, r.Carries bubble pin ∧ pin.name = none))
    ∧ ∀ nl : Netlist,
      (∀ board : Board, p.board.resources.Perm board.resources →
        nl.boardBindings board = nl.boardBindings p.board)
      ∧ (∃ unowned : List ℕ, unowned.Pairwise (· < ·)
        ∧ (∀ n, n ∈ unowned ↔ n < nl.inoutBubbles.toNat
          ∧ ∀ r ∈ p.board.resources, ¬ r.Owns (.ofNat n))
        ∧ ∀ scope, (nl.boardBindings p.board).reports scope
          = unowned.map fun n => (Warning.unownedBubble n).diagnostic.atScope scope)
      ∧ ∃ bindings, (nl.boardBindings p.board).outcome = .ok bindings
        ∧ ∀ d n, n < nl.inoutBubbles.toNat →
          ((d = .vhdl ∧ 1 < nl.inoutBubbles.toNat) ∨ Names.inoutBubbles ∉ nl.identifiers →
            ∀ actual, (∃ e ∈ (PortMap.ofBindings d bindings).toList,
                e.2.BindsBit d Names.inoutBubbles nl.inoutBubbles.toNat n actual)
              ↔ actual = Netlist.bubbleActual (p.board.bubble? (.ofNat n)))
          ∧ (¬ (d = .vhdl ∧ 1 < nl.inoutBubbles.toNat) → Names.inoutBubbles ∈ nl.identifiers →
            ∀ actual, (∃ e ∈ (PortMap.ofBindings d bindings).toList,
                e.2.BindsBit d Names.inoutBubbles nl.inoutBubbles.toNat n actual)
              ↔ nl.inoutBubbles.toNat = 1
                ∧ actual = .ref (.whole (Names.onBoard Names.inoutBubbles))) := by
  refine ⟨fun bubble i j a b ha hb => owner_unique haccepted ha hb, fun bubble =>
    ⟨Board.bubble?_eq_none_iff, fun name inverted => bubble?_eq_pin_iff haccepted,
      bubble?_eq_opened_iff haccepted⟩, fun nl => ⟨fun board hperm => ?_, ?_, ?_⟩⟩
  · exact nl.boardBindings_congr (Board.bubble?_perm (apart_of_check haccepted) hperm)
  · obtain ⟨unowned, hascending, hmem, hwarnings⟩ := nl.exists_boardWarnings p.board
    refine ⟨unowned, hascending, hmem, fun scope => ?_⟩
    have hreports : (nl.boardBindings p.board).reports scope
        = ((nl.boardWarnings p.board).map Warning.diagnostic ++ []).map
          (Diagnostic.atScope scope) := rfl
    rw [hreports, hwarnings, List.append_nil, List.map_map, List.map_map]
    rfl
  · exact ⟨_, rfl, fun d n hn => ⟨fun hown actual => Netlist.boardBindings_bindsBit rfl hn hown,
      fun hwhole hpin actual => Netlist.boardBindings_bindsBit_of_pin rfl hn hwhole hpin⟩⟩

/-- Two resources, the later bubbles first: an inverted pin, one that is open, and one without name;
no bubble between them is owned. -/
def twoResources : Project where
  name := "p"
  top := "main"
  board := ⟨[
    { name := "B", firstBubble := 3, pins := [{ name := some "b" }] },
    { name := "A", pins := [{ name := some "a", inverted := true }, { isOpen := true }] }]⟩

/-- A circuit of four bubbles on two resources: in VHDL there is an entry for each. -/
theorem check_binds_twoResources :
    let nl : Netlist := { inoutBubbles := 4 }
    twoResources.check = .ok ()
    ∧ (nl.boardBindings twoResources.board).reports "top"
      = [(Warning.unownedBubble 2).diagnostic.atScope "top"]
    ∧ ∃ bindings, (nl.boardBindings twoResources.board).outcome = .ok bindings
      ∧ ∀ d, ∀ n < 4, ∀ actual, (∃ e ∈ (PortMap.ofBindings d bindings).toList,
          e.2.BindsBit d Names.inoutBubbles 4 n actual)
        ↔ [Actual.ref (.whole "n_a"), .unconnectedBit, .unconnectedBit, .ref (.whole "b")][n]?
          = some actual := by
  intro nl
  have haccepted : twoResources.check = .ok () := by decide
  obtain ⟨-, -, hnl⟩ := check_binds haccepted
  obtain ⟨-, -, bindings, hok, hbinds⟩ := hnl nl
  refine ⟨haccepted, by decide, bindings, hok, fun d n hn actual => ?_⟩
  refine ((hbinds d n hn).1 (.inr (by decide)) actual).trans ?_
  have hbubble : ∀ n < 4, [Actual.ref (.whole "n_a"), .unconnectedBit, .unconnectedBit,
      .ref (.whole "b")][n]? = some (Netlist.bubbleActual (twoResources.board.bubble? (.ofNat n))) := by
    decide
  rw [hbubble n hn, Option.some_inj, eq_comm]

/-- A circuit with two bubbles, and a pin that has the name of the bubble port. -/
def labelledAsBubbles : Netlist where
  inputs := [{ label := "logisimInOutBubbles", terminals := [⟨.output, none, [none]⟩] }]
  inoutBubbles := 2

/-- **A pin takes the place of the bubbles** in Verilog, where it has the name of their port: the
project is accepted, and nothing is bound to the pins of its resource. -/
theorem check_binds_not_labelledAsBubbles :
    let board : Board := ⟨[{ name := "A", pins := [{ name := some "a0" }, { name := some "a1" }] }]⟩
    Project.check { name := "p", top := "main", board } = .ok ()
    ∧ ∃ bindings, (labelledAsBubbles.boardBindings board).outcome = .ok bindings
      ∧ (PortMap.ofBindings .verilog bindings).texts .verilog
        = [("logisimInOutBubbles", "s_logisimInOutBubbles")]
      ∧ ∀ n < 2, ¬ ∃ e ∈ (PortMap.ofBindings .verilog bindings).toList,
        e.2.BindsBit .verilog Names.inoutBubbles 2 n
          (Netlist.bubbleActual (board.bubble? (.ofNat n))) := by
  intro board
  have hmap : ∃ bindings, (labelledAsBubbles.boardBindings board).outcome = .ok bindings
      ∧ (PortMap.ofBindings .verilog bindings).toList = [("logisimInOutBubbles",
        ⟨.whole "logisimInOutBubbles", .single (.ref (.whole "s_logisimInOutBubbles"))⟩)] :=
    ⟨_, rfl, by decide⟩
  obtain ⟨bindings, hok, hmap⟩ := hmap
  refine ⟨by decide, bindings, hok, ?_, fun n _ => ?_⟩
  · rw [PortMap.texts, hmap]
    rfl
  · rintro ⟨e, he, hbinds⟩
    rw [hmap] at he
    obtain rfl := List.mem_singleton.1 he
    generalize Netlist.bubbleActual _ = actual at hbinds
    cases hbinds with
    | alone hone => cases hone

end Project

end Netscribe
