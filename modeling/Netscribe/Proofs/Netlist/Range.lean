import Netscribe.Proofs.Netlist.Root

/-!
# What a bus range stands for

A terminal whose bits lie side by side on one bus is carried by a range of it.  Its bits are looked at
one after the other, and the place where the next one has to lie is counted in words from the lowest
one.  The bit before it is a bit of the bus, so this place is at most the width of the bus: it is a
word in every netlist, and the count of bits so far is one too.

* `Netlist.Spans` — a range of so many bits, the highest of which is a bit of the bus.
* `Netlist.SideBySide` — bits that are carried by successive bits of a net.
* `Netlist.scanFrom_cases` — what looking at the remaining bits comes to.
* `Netlist.busRange?_eq_some_iff` — which terminals have a range.
* **`Netlist.busRange?_exact`** — the same for a terminal given by its position, and no sum on the way
  is too large.
-/

namespace Netscribe.Netlist

variable {nl : Netlist} {r : BusRange} {i : ℕ} {root : Point} {t : Terminal}

/-! ## One more bit -/

/-- **A range of so many bits**, the highest of which is a bit of the bus. -/
structure Spans (nl : Netlist) (r : BusRange) (count : ℕ) : Prop where
  count_eq : r.hi.toNat + 1 = r.lo.toNat + count
  hasHighest : ∃ net, nl.net? r.net = some net ∧ r.hi < net.width

/-- The place of the next bit is a word, and so is the number of bits so far. -/
lemma Spans.exists_place (h : nl.Spans r i) :
    ∃ place, addWord? r.lo (UInt32.ofNat i) = some place ∧ place.toNat = r.lo.toNat + i := by
  obtain ⟨net, -, hhi⟩ := h.hasHighest
  have hcount := h.count_eq
  have hword : r.lo.toNat + i < UInt32.size := by
    rw [UInt32.lt_iff_toNat_lt] at hhi
    exact Nat.lt_of_le_of_lt (show _ ≤ net.width.toNat by omega) net.width.toNat_lt
  have hi : (UInt32.ofNat i).toNat = i := UInt32.toNat_ofNat_of_lt' (by omega)
  refine ⟨UInt32.ofNat (r.lo.toNat + i), addWord?_eq_some_iff.2 ?_, UInt32.toNat_ofNat_of_lt' hword⟩
  rw [hi, UInt32.toNat_ofNat_of_lt' hword]

/-- A range is broken by a root that is not the next bit of the bus, and by nothing else. -/
lemma Spans.extend_eq (h : nl.Spans r i) (root : Point) :
    r.extend i root = if root.net = r.net ∧ root.bit.toNat = r.lo.toNat + i
      then .range { r with hi := root.bit } else .broken := by
  obtain ⟨place, hplace, hsum⟩ := h.exists_place
  have hbit : root.bit = place ↔ root.bit.toNat = r.lo.toNat + i := by
    rw [← hsum, UInt32.toNat_inj]
  by_cases hnet : root.net = r.net
  · simp only [BusRange.extend, hplace, hbit, hnet, true_and, if_true]
  · simp only [BusRange.extend, hnet, false_and, if_false]

lemma Spans.next (hroot : nl.IsStorage root) (hnet : root.net = r.net)
    (hbit : root.bit.toNat = r.lo.toNat + i) : nl.Spans { r with hi := root.bit } (i + 1) := by
  obtain ⟨net, hrootNet, hlt, -⟩ := hroot
  exact ⟨by simp only [hbit, Nat.add_assoc], net, hnet ▸ hrootNet, hlt⟩

/-- A root is a range of one bit. -/
lemma Spans.one (hroot : nl.IsStorage root) : nl.Spans ⟨root.net, root.bit, root.bit⟩ 1 := by
  obtain ⟨net, hnet, hbit, -⟩ := hroot
  exact ⟨rfl, net, hnet, hbit⟩

/-! ## The remaining bits -/

/-- **Bits that are carried by successive bits of a net**, from one of them on. -/
def SideBySide (nl : Netlist) (net : UInt32) (lo : ℕ) (bits : List (Option Point)) : Prop :=
  ∀ i (h : i < bits.length), ∃ root, bits[i].bind nl.rootOf = some root
    ∧ root.net = net ∧ root.bit.toNat = lo + i

lemma sideBySide_nil {net : UInt32} {lo : ℕ} : nl.SideBySide net lo [] := by
  intro i hi
  cases hi

lemma sideBySide_cons {net : UInt32} {lo : ℕ} {bit : Option Point} {bits : List (Option Point)} :
    nl.SideBySide net lo (bit :: bits) ↔
      (∃ root, bit.bind nl.rootOf = some root ∧ root.net = net ∧ root.bit.toNat = lo)
        ∧ nl.SideBySide net (lo + 1) bits := by
  constructor
  · intro h
    refine ⟨h 0 (Nat.succ_pos _), fun i hi => ?_⟩
    obtain ⟨root, hroot, hnet, hbit⟩ := h (i + 1) (Nat.succ_lt_succ hi)
    exact ⟨root, hroot, hnet, by omega⟩
  · rintro ⟨hfirst, hrest⟩ i hi
    cases i with
    | zero => exact hfirst
    | succ i =>
        obtain ⟨root, hroot, hnet, hbit⟩ := hrest i (Nat.lt_of_succ_lt_succ hi)
        exact ⟨root, hroot, hnet, by omega⟩

/-- **The remaining bits extend the range to its end, or break it**, and never come to a place that is
no word. -/
lemma scanFrom_cases (h : nl.Spans r i) (bits : List (Option Point)) :
    (nl.SideBySide r.net (r.lo.toNat + i) bits
      ∧ ∃ hi, nl.scanFrom r i bits = .range { r with hi }
        ∧ hi.toNat + 1 = r.lo.toNat + (i + bits.length))
    ∨ (¬ nl.SideBySide r.net (r.lo.toNat + i) bits ∧ nl.scanFrom r i bits = .broken) := by
  induction bits generalizing r i with
  | nil => exact .inl ⟨sideBySide_nil, r.hi, rfl, h.count_eq⟩
  | cons bit bits ih =>
      rw [sideBySide_cons, scanFrom]
      cases hbit : bit.bind nl.rootOf with
      | none => exact .inr ⟨fun hall => by simp at hall, rfl⟩
      | some root =>
          obtain ⟨p, -, hp⟩ := Option.bind_eq_some_iff.1 hbit
          simp only [h.extend_eq, Option.some.injEq, exists_eq_left']
          by_cases hnext : root.net = r.net ∧ root.bit.toNat = r.lo.toNat + i
          · rw [if_pos hnext]
            simp only [hnext, and_self, true_and]
            have hspans := Spans.next (rootOf_isStorage hp) hnext.1 hnext.2
            have hlength : i + 1 + bits.length = i + (bit :: bits).length := by
              rw [List.length_cons]
              omega
            rw [Nat.add_assoc r.lo.toNat, ← hlength]
            exact ih hspans
          · rw [if_neg hnext]
            exact .inr ⟨fun hall => hnext hall.1, rfl⟩

/-! ## All bits -/

/-- **A range that carries a terminal**: of at least two bits, on a bus, bit `i` of the terminal on bit
`lo + i`. -/
structure CarriedBy (nl : Netlist) (t : Terminal) (r : BusRange) : Prop where
  several : 2 ≤ t.width
  bus : (nl.net? r.net).any Net.isBus = true
  highest : r.hi.toNat + 1 = r.lo.toNat + t.width
  bits : nl.SideBySide r.net r.lo.toNat t.bits

/-- The lowest bit of the terminal is the lowest one of the range. -/
lemma CarriedBy.head {first : Option Point} {rest : List (Option Point)} (h : nl.CarriedBy t r)
    (hbits : t.bits = first :: rest) :
    ∃ root, first.bind nl.rootOf = some root ∧ root.net = r.net ∧ root.bit = r.lo
      ∧ nl.SideBySide r.net (r.lo.toNat + 1) rest := by
  obtain ⟨⟨root, hroot, hnet, hbit⟩, hrest⟩ := sideBySide_cons.1 (hbits ▸ h.bits)
  exact ⟨root, hroot, hnet, UInt32.toNat_inj.1 hbit, hrest⟩

/-- There are a lowest bit and another one. -/
lemma CarriedBy.exists_bits (h : nl.CarriedBy t r) :
    ∃ first second rest, t.bits = first :: second :: rest := by
  have hseveral := h.several
  rw [Terminal.width] at hseveral
  cases hbits : t.bits with
  | nil => simp [hbits] at hseveral
  | cons first rest =>
      cases rest with
      | nil => simp [hbits] at hseveral
      | cons second rest => exact ⟨first, second, rest, rfl⟩

/-- A terminal has one range at most. -/
lemma CarriedBy.unique {r' : BusRange} (h : nl.CarriedBy t r) (h' : nl.CarriedBy t r') : r = r' := by
  obtain ⟨first, second, rest, hbits⟩ := h.exists_bits
  obtain ⟨root, hroot, hnet, hbit, -⟩ := h.head hbits
  obtain ⟨root', hroot', hnet', hbit', -⟩ := h'.head hbits
  obtain rfl := Option.some.inj (hroot.symm.trans hroot')
  have hlo : r.lo = r'.lo := hbit.symm.trans hbit'
  have hhi : r.hi = r'.hi := by
    have hr := h.highest
    have hr' := h'.highest
    rw [hlo] at hr
    exact UInt32.toNat_inj.1 (by omega)
  cases r
  cases r'
  simp_all

/-- **A terminal is carried by the range that is found, or by none**, and no place on the way is too
large for a word. -/
lemma scan_cases (nl : Netlist) (t : Terminal) :
    (∃ r, nl.scan t = .range r ∧ nl.CarriedBy t r)
    ∨ (nl.scan t = .broken ∧ ∀ r, ¬ nl.CarriedBy t r) := by
  rw [scan]
  split
  · next first second rest hbits =>
      have hwidth : t.width = 1 + (second :: rest).length := by
        rw [Terminal.width, hbits, List.length_cons, Nat.add_comm]
      split
      · next hnone =>
          refine .inr ⟨rfl, fun r hr => ?_⟩
          obtain ⟨root, hroot, -⟩ := hr.head hbits
          cases hnone.symm.trans hroot
      · next root hroot =>
          obtain ⟨p, -, hp⟩ := Option.bind_eq_some_iff.1 hroot
          split
          · next hbus =>
              have hone : nl.Spans ⟨root.net, root.bit, root.bit⟩ 1 := .one (rootOf_isStorage hp)
              rcases scanFrom_cases hone (second :: rest) with
                ⟨hrest, hi, hscan, hhi⟩ | ⟨hrest, hscan⟩
              · refine .inl ⟨_, hscan, ⟨?_, hbus, hwidth ▸ hhi, ?_⟩⟩
                · rw [hwidth, List.length_cons]
                  omega
                · rw [hbits]
                  exact sideBySide_cons.2 ⟨⟨root, hroot, rfl, rfl⟩, hrest⟩
              · refine .inr ⟨hscan, fun r hr => hrest ?_⟩
                obtain ⟨root', hroot', hnet, hbit, hall⟩ := hr.head hbits
                obtain rfl := Option.some.inj (hroot.symm.trans hroot')
                rwa [hnet, hbit]
          · next hbus =>
              refine .inr ⟨rfl, fun r hr => hbus ?_⟩
              obtain ⟨root', hroot', hnet, -⟩ := hr.head hbits
              obtain rfl := Option.some.inj (hroot.symm.trans hroot')
              exact hnet ▸ hr.bus
  · next hfew =>
      refine .inr ⟨rfl, fun r hr => ?_⟩
      obtain ⟨first, second, rest, hbits⟩ := hr.exists_bits
      exact hfew first second rest hbits

lemma scan_ne_overflow (nl : Netlist) (t : Terminal) : nl.scan t ≠ .overflow := by
  rcases nl.scan_cases t with ⟨r, hscan, -⟩ | ⟨hscan, -⟩
  all_goals
    rw [hscan]
    exact fun h => nomatch h

/-- **A terminal has a range exactly when its bits lie side by side on one bus**: at least two of
them, bit `i` carried by bit `lo + i`. -/
theorem busRange?_eq_some_iff {t : Terminal} {r : BusRange} :
    nl.busRange? t = some r
      ↔ 2 ≤ t.width ∧ (nl.net? r.net).any Net.isBus = true
        ∧ r.hi.toNat + 1 = r.lo.toNat + t.width
        ∧ ∀ i (h : i < t.bits.length), ∃ root, t.bits[i].bind nl.rootOf = some root
            ∧ root.net = r.net ∧ root.bit.toNat = r.lo.toNat + i := by
  have hcarried : nl.busRange? t = some r ↔ nl.CarriedBy t r := by
    rw [busRange?]
    rcases nl.scan_cases t with ⟨r', hscan, hr'⟩ | ⟨hscan, hnone⟩
    · rw [hscan, RangeScan.range?, Option.some.injEq]
      exact ⟨fun h => h ▸ hr', hr'.unique⟩
    · rw [hscan, RangeScan.range?]
      exact iff_of_false (fun h => nomatch h) (hnone r)
  rw [hcarried]
  exact ⟨fun h => ⟨h.several, h.bus, h.highest, h.bits⟩,
    fun ⟨h, hbus, hhi, hbits⟩ => ⟨h, hbus, hhi, hbits⟩⟩

/-- **The range of a terminal is exact**, in every netlist.  There is one if and only if the terminal
exists and has two bits or more, each of them is connected, and the root of bit `i` is bit `lo + i` of
one bus; it then ends at the root of the highest bit.  Whatever the terminal, the sum of the lowest
bit and the number of bits so far is never too large for a word. -/
theorem busRange?_exact (nl : Netlist) (c : Component) (index : ℕ) :
    (∀ r : BusRange, (c.terminal? index).bind nl.busRange? = some r ↔
      ∃ t, c.terminal? index = some t ∧ 2 ≤ t.width
        ∧ (∀ i < t.width, ∃ p root, t.point? i = some p ∧ nl.rootOf p = some root
            ∧ root.net = r.net ∧ root.bit.toNat = r.lo.toNat + i)
        ∧ (∃ net, nl.net? r.net = some net ∧ 1 < net.width)
        ∧ r.hi.toNat = r.lo.toNat + t.width - 1)
    ∧ ∀ t, nl.scan t ≠ .overflow := by
  refine ⟨fun r => ?_, nl.scan_ne_overflow⟩
  rw [Option.bind_eq_some_iff]
  refine exists_congr fun t => and_congr_right fun _ => ?_
  have hbus : (nl.net? r.net).any Net.isBus = true
      ↔ ∃ net, nl.net? r.net = some net ∧ 1 < net.width := by
    simp [Option.any_eq_true, Net.isBus]
  have hbits : (∀ i (h : i < t.bits.length), ∃ root, t.bits[i].bind nl.rootOf = some root
        ∧ root.net = r.net ∧ root.bit.toNat = r.lo.toNat + i) ↔
      ∀ i < t.width, ∃ p root, t.point? i = some p ∧ nl.rootOf p = some root
        ∧ root.net = r.net ∧ root.bit.toNat = r.lo.toNat + i := by
    refine forall_congr' fun i => forall_congr' fun hi => ?_
    have hpoint : t.point? i = t.bits[i] := by
      rw [Terminal.point?, List.getElem?_eq_getElem hi, Option.join_some]
    simp only [hpoint, Option.bind_eq_some_iff]
    constructor
    · rintro ⟨root, ⟨p, hp, hroot⟩, hlies⟩
      exact ⟨p, root, hp, hroot, hlies⟩
    · rintro ⟨p, root, hp, hroot, hlies⟩
      exact ⟨root, ⟨p, hp, hroot⟩, hlies⟩
  rw [busRange?_eq_some_iff, hbus, hbits]
  refine and_congr_right fun hseveral => ?_
  constructor
  · rintro ⟨hnet, hhi, hall⟩
    exact ⟨hall, hnet, by omega⟩
  · rintro ⟨hall, hnet, hhi⟩
    exact ⟨hnet, by omega, hall⟩

/-- The two highest bits of the widest bus there can be.  A third bit would have to lie at the largest
word, and there is no such bit. -/
theorem busRange?_exact_widest :
    let nl : Netlist := { nets := #[{ width := 4294967295 }] }
    let t : Terminal := ⟨.input, none, [some ⟨0, 4294967293⟩, some ⟨0, 4294967294⟩]⟩
    let longer : Terminal := { t with bits := t.bits ++ [some ⟨0, 4294967295⟩] }
    ((⟨"", .pin, [t], {}⟩ : Component).terminal? 0).bind nl.busRange?
      = some ⟨0, 4294967293, 4294967294⟩
    ∧ nl.scan longer ≠ .overflow ∧ nl.scan longer = .broken := by
  intro nl t longer
  obtain ⟨hexact, hsum⟩ := busRange?_exact nl ⟨"", .pin, [t], {}⟩ 0
  refine ⟨(hexact _).2 ⟨t, rfl, by decide, ?_, ⟨_, rfl, by decide⟩, rfl⟩, hsum longer, by decide⟩
  intro i hi
  match i, hi with
  | 0, _ => exact ⟨_, ⟨0, 4294967293⟩, rfl, by decide, rfl, rfl⟩
  | 1, _ => exact ⟨_, ⟨0, 4294967294⟩, rfl, by decide, rfl, rfl⟩

end Netscribe.Netlist
