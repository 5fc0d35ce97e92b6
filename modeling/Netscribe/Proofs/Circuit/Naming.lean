import Mathlib.Data.List.Nodup
import Netscribe.Proofs.Circuit.Terminal
import Netscribe.Proofs.Hdl.Reference

/-!
# Signals are told apart by their texts

Each single wire and each root bus has a signal of its own, named by its position, and a point is
carried by a bit of one of them.  Two points are carried by the same text only if they have the same
root.

* `Names.net_injective`, `Names.bus_injective`, `Names.net_ne_bus` — names of different nets differ.
* `Ref.Declared` — a reference stays inside a declared signal.
* `Netlist.signals_nodup` — no two declared signals share a name.
* `Netlist.text_signalOf_inj` — what carries a point tells its root.
-/

namespace Netscribe

/-! ## Names -/

namespace Names

lemma net_injective : Function.Injective net := by
  intro m n h
  exact Nat.repr_injective ((String.append_right_inj _).1 h)

lemma bus_injective : Function.Injective bus := by
  intro m n h
  exact Nat.repr_injective ((String.append_right_inj _).1 h)

lemma net_ne_bus (m n : ℕ) : net m ≠ bus n := by
  intro h
  have hchar : ("s_logisimNet" ++ toString m).toList[9]? = ("s_logisimBus" ++ toString n).toList[9]? :=
    congrArg (fun s : String => s.toList[9]?) h
  simp at hchar

lemma isWord_net (id : ℕ) : IsWord (net id) :=
  IsWord.append (by decide) (IsWord.natural id)

lemma isWord_bus (id : ℕ) : IsWord (bus id) :=
  IsWord.append (by decide) (IsWord.natural id)

end Names

/-! ## Declared references -/

/-- **A reference that stays inside a declared signal**: a single wire as a whole, or bits of a
bus. -/
inductive Ref.Declared (signals : List Signal) : Ref → Prop
  | wire {name} : ⟨name, 1⟩ ∈ signals → Declared signals (.whole name)
  /-- A bit below the width. -/
  | bit {name width index} : ⟨name, width⟩ ∈ signals → 1 < width → index < width →
      Declared signals (.bit name index)
  /-- Bits in ascending order, the highest below the width. -/
  | range {name width hi lo} : ⟨name, width⟩ ∈ signals → 1 < width → lo ≤ hi → hi < width →
      Declared signals (.range name hi lo)

lemma Point.ext {p q : Point} (hnet : p.net = q.net) (hbit : p.bit = q.bit) : p = q := by
  cases p
  cases q
  simp_all

namespace Netlist

variable {nl : Netlist}

/-- The declared signals have different names. -/
lemma signals_nodup (nl : Netlist) : (nl.signals.map Signal.name).Nodup := by
  have hids : (nl.numberedNets.map Prod.snd).Nodup := by
    rw [numberedNets, List.zipIdx_map_snd]
    exact List.nodup_range'
  have hsome : ∀ select : Net × ℕ → Bool, ((nl.numberedNets.filter select).map Prod.snd).Nodup :=
    fun select => hids.sublist (List.filter_sublist.map _)
  rw [signals, List.map_append, List.map_map, List.map_map]
  refine List.nodup_append.2 ⟨?_, ?_, ?_⟩
  · have h := List.Nodup.map Names.net_injective (hsome fun b => !b.1.isBus)
    rwa [List.map_map] at h
  · have h := List.Nodup.map Names.bus_injective (hsome fun b => b.1.isBus && b.1.isRoot)
    rwa [List.map_map] at h
  · rintro _ hwire _ hbus rfl
    obtain ⟨b, -, hb⟩ := List.mem_map.1 hwire
    obtain ⟨b', -, hb'⟩ := List.mem_map.1 hbus
    exact Names.net_ne_bus b.2 b'.2 (hb.trans hb'.symm)

/-- A bit of a net with storage is declared. -/
lemma declared_bitOfNet {net : Net} {id bit : ℕ} (hnet : (net, id) ∈ nl.numberedNets)
    (hroot : net.isBus = true → net.isRoot = true) (hbit : bit < net.width.toNat) :
    (bitOfNet net id bit).Declared nl.signals := by
  rw [bitOfNet]
  split
  · next hbus =>
      refine .bit (List.mem_append_right _ ?_) (Net.one_lt_width hbus) hbit
      exact List.mem_map.2 ⟨(net, id), List.mem_filter.2 ⟨hnet, by simp [hbus, hroot hbus]⟩, rfl⟩
  · next hbus =>
      refine .wire (List.mem_append_left _ ?_)
      exact List.mem_map.2 ⟨(net, id), List.mem_filter.2 ⟨hnet, by simp [hbus]⟩, rfl⟩

/-- What carries a point is declared. -/
lemma declared_signalOf {p : Point} {r : Ref} (h : nl.signalOf p = some r) :
    r.Declared nl.signals := by
  obtain ⟨root, net, hroot, hnet, rfl⟩ := signalOf_eq_some_iff.1 h
  obtain ⟨net', hnet', hbit, hfollow⟩ := rootOf_isStorage hroot
  obtain rfl : net = net' := by simpa [hnet] using hnet'
  exact declared_bitOfNet (mem_numberedNets hnet) (Net.isRoot_of_follow?_eq_none hfollow)
    (UInt32.lt_iff_toNat_lt.1 hbit)

/-- The range that carries a terminal is declared. -/
lemma declared_busRange {t : Terminal} {r : BusRange} (h : nl.busRange? t = some r) :
    (Ref.range (Names.bus r.net.toNat) r.hi.toNat r.lo.toNat).Declared nl.signals := by
  obtain ⟨⟨width, hmem, hbus, hhi⟩, hlen, -⟩ := busRange?_signals h
  have hw := (busRange?_eq_some_iff.1 h).1
  exact .range hmem hbus (by omega) hhi

/-! ## Texts and roots -/

/-- A point is carried by something exactly if it has a root. -/
lemma isSome_signalOf {p : Point} : (nl.signalOf p).isSome = (nl.rootOf p).isSome := by
  cases hroot : nl.rootOf p with
  | none => simp [signalOf, hroot]
  | some root =>
      obtain ⟨net, hnet, -⟩ := rootOf_isStorage hroot
      simp [signalOf, hroot, hnet]

lemma signalOf_eq_none_iff {p : Point} : nl.signalOf p = none ↔ nl.rootOf p = none := by
  rw [← Option.not_isSome_iff_eq_none, ← Option.not_isSome_iff_eq_none, isSome_signalOf]

lemma isWord_bitOfNet (net : Net) (id bit : ℕ) : IsWord (bitOfNet net id bit).name := by
  rw [bitOfNet]
  split
  · exact Names.isWord_bus id
  · exact Names.isWord_net id

/-- Bits of nets are told apart by what they are written as, where they exist. -/
lemma bitOfNet_inj {net net' : Net} {id id' bit bit' : ℕ} (hbit : bit < net.width.toNat)
    (hbit' : bit' < net'.width.toNat) (h : bitOfNet net id bit = bitOfNet net' id' bit') :
    id = id' ∧ bit = bit' := by
  cases hbus : net.isBus <;> cases hbus' : net'.isBus <;> simp only [bitOfNet, hbus, hbus', if_true,
    Bool.false_eq_true, if_false, Ref.whole.injEq, Ref.bit.injEq, reduceCtorEq] at h
  · -- of a single wire there is but one bit
    simp only [Net.isBus, decide_eq_false_iff_not, UInt32.lt_iff_toNat_lt, UInt32.toNat_one]
      at hbus hbus'
    exact ⟨Names.net_injective h, by omega⟩
  · exact ⟨Names.bus_injective h.1, h.2⟩

/-- **What carries a point tells its root.** -/
lemma text_signalOf_inj {p q : Point} {r s : Ref} (hr : nl.signalOf p = some r)
    (hs : nl.signalOf q = some s) (d : Dialect) :
    r.text d = s.text d ↔ nl.rootOf p = nl.rootOf q := by
  obtain ⟨root, net, hroot, hnet, rfl⟩ := signalOf_eq_some_iff.1 hr
  obtain ⟨root', net', hroot', hnet', rfl⟩ := signalOf_eq_some_iff.1 hs
  constructor
  · intro h
    have href := Ref.text_injective (isWord_bitOfNet _ _ _) (isWord_bitOfNet _ _ _) h
    obtain ⟨n, hn, hbit, -⟩ := rootOf_isStorage hroot
    obtain ⟨n', hn', hbit', -⟩ := rootOf_isStorage hroot'
    obtain rfl : net = n := by simpa [hnet] using hn
    obtain rfl : net' = n' := by simpa [hnet'] using hn'
    rw [UInt32.lt_iff_toNat_lt] at hbit hbit'
    obtain ⟨hid, hindex⟩ := bitOfNet_inj hbit hbit' href
    obtain rfl : root = root' := Point.ext (UInt32.toNat_inj.1 hid) (UInt32.toNat_inj.1 hindex)
    rw [hroot, hroot']
  · intro h
    obtain rfl : root = root' := by simpa [hroot, hroot'] using h
    obtain rfl : net = net' := by simpa [hnet] using hnet'
    rfl

end Netlist

end Netscribe
