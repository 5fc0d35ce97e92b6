import Netscribe.Circuit.Wiring
import Netscribe.Proofs.Circuit.Signals
import Netscribe.Proofs.Data.Lists

/-!
# Terminals, bit by bit

A terminal meets the signals in one of four ways, and one of them, a range of one bus, is written
as a single reference.  Whatever the way, the text says the same of every bit as a text written bit
by bit would.

* `Netlist.bitDriver` — what one bit of a terminal is driven by or bound to.
* `Netlist.boundBits`, `Netlist.drivenBits` — the same for all bits of a terminal.
* `Netlist.missingWarnings` — what is reported of a terminal.
* **`Netlist.pinAssignments_reads`** — a terminal joined by assignments.
* **`Netlist.terminalBinding_reads`** — a terminal joined in a port map.
-/

namespace Netscribe

/-! ## What is to be said of each bit -/

/-- What a bit without a signal is tied to: ground, if the component reads it. -/
def Direction.absent : Direction → Driver
  | .input => .zero
  | .output | .inout => .nothing

namespace Netlist

variable (nl : Netlist) (port : String)

/-- **What one bit of a terminal is driven by or bound to.** -/
def bitDriver (direction : Direction) (connection : Option Point) : Driver :=
  match nl.signalAt connection with
  | some signal => .wire signal.wire
  | none => direction.absent

/-- **Each bit of a terminal with what it is bound to**, under the name of its port. -/
def boundBits (t : Terminal) : List (Wire × Driver) :=
  t.bits.zipIdx.map fun b => (⟨port, b.2⟩, nl.bitDriver t.direction b.1)

/-- **The signal of each bit that has one, driven by that bit.** -/
def drivenBits (t : Terminal) : List (Wire × Driver) :=
  t.bits.zipIdx.filterMap fun b =>
    (nl.signalAt b.1).map fun signal => (signal.wire, .wire ⟨port, b.2⟩)

/-- **What is reported of a terminal**: one warning where no bit has a signal, else one for each bit
without; and nothing where the component may drive. -/
def missingWarnings (t : Terminal) : List Warning :=
  match t.direction with
  | .output | .inout => []
  | .input =>
    if ∀ b ∈ t.bits, nl.signalAt b = none then
      [if t.width = 1 then .unconnectedInput port else .unconnectedBus port]
    else
      (t.bits.zipIdx.filter fun (b, _) => (nl.signalAt b).isNone).map fun (_, i) =>
        .unconnectedBit port i

end Netlist

/-! ## The four ways -/

namespace Netlist

variable {nl : Netlist} {t : Terminal}

/-- With any other number of bits there is no single signal to match. -/
lemma wiresOf_of_width (hw : t.width ≠ 1) :
    nl.wiresOf t = if (t.bits.map nl.signalAt).all Option.isNone then .nothing
      else match nl.busRange? t with
        | some r => .range (.range (Names.bus r.net.toNat) r.hi.toNat r.lo.toNat)
        | none => .bits (t.bits.map nl.signalAt) := by
  rw [wiresOf]
  split
  · next hs => exact absurd (by simpa [Terminal.width] using congrArg List.length hs) hw
  · rfl

/-- **The four ways**, with what is known of the terminal in each. -/
@[elab_as_elim]
theorem wiresOf_cases {motive : Wires → Prop}
    (single : ∀ b, t.bits = [b] → motive (.single (nl.signalAt b)))
    (nothing : t.width ≠ 1 → (∀ b ∈ t.bits, nl.signalAt b = none) → motive .nothing)
    (range : t.width ≠ 1 → (¬ ∀ b ∈ t.bits, nl.signalAt b = none) → ∀ r, nl.busRange? t = some r →
      motive (.range (.range (Names.bus r.net.toNat) r.hi.toNat r.lo.toNat)))
    (bits : t.width ≠ 1 → (¬ ∀ b ∈ t.bits, nl.signalAt b = none) →
      motive (.bits (t.bits.map nl.signalAt))) :
    motive (nl.wiresOf t) := by
  by_cases hw : t.width = 1
  · obtain ⟨b, hb⟩ := List.length_eq_one_iff.1 hw
    simpa [wiresOf, hb] using single b hb
  · rw [wiresOf_of_width hw]
    by_cases h : ∀ b ∈ t.bits, nl.signalAt b = none
    · rw [if_pos (by simpa using h)]
      exact nothing hw h
    · rw [if_neg (by simpa using h)]
      cases hr : nl.busRange? t with
      | some r => exact range hw h r hr
      | none => exact bits hw h

/-- **A range is one of a declared bus**, and says what each bit of the terminal is carried by. -/
theorem busRange?_signals {r : BusRange} (h : nl.busRange? t = some r) :
    (∃ width, (⟨Names.bus r.net.toNat, width⟩ : Signal) ∈ nl.signals ∧ 1 < width
      ∧ r.hi.toNat < width)
    ∧ r.hi.toNat + 1 = r.lo.toNat + t.width
    ∧ ∀ i (hi : i < t.bits.length),
        nl.signalAt t.bits[i] = some (.bit (Names.bus r.net.toNat) (r.lo.toNat + i)) := by
  obtain ⟨hwidth, hbus, hhi, hbits⟩ := busRange?_eq_some_iff.1 h
  obtain ⟨net, hnet, hbus⟩ := (Option.any_eq_true _ _).1 hbus
  refine ⟨?_, hhi, ?_⟩
  · -- the last bit is a bit of the bus, so the range ends inside it
    obtain ⟨root, hroot, hrnet, hrbit⟩ := hbits (t.width - 1) (by simp [Terminal.width] at *; omega)
    obtain ⟨p, -, hp⟩ := Option.bind_eq_some_iff.1 hroot
    obtain ⟨net', hnet', hbit, hfollow⟩ := rootOf_isStorage hp
    obtain rfl : net = net' := by simpa [hrnet, hnet] using hnet'
    have hbit := UInt32.lt_iff_toNat_lt.1 hbit
    exact ⟨net.width.toNat, bus_mem_signals hnet hbus (Net.isRoot_of_follow?_eq_none hfollow hbus),
      Net.one_lt_width hbus, by omega⟩
  · intro i hi
    obtain ⟨root, hroot, hrnet, hrbit⟩ := hbits i hi
    obtain ⟨p, hp, hp'⟩ := Option.bind_eq_some_iff.1 hroot
    rw [signalAt, hp, Option.bind_some, signalOf_eq_some_iff]
    exact ⟨root, net, hp', hrnet ▸ hnet, by simp [bitOfNet, hbus, hrnet, hrbit]⟩

/-! ## From whole references to bits -/

variable {port : String}

@[simp] lemma bitDriver_some {direction : Direction} {b : Option Point} {signal : Ref}
    (h : nl.signalAt b = some signal) : nl.bitDriver direction b = .wire signal.wire := by
  simp [bitDriver, h]

@[simp] lemma bitDriver_none {direction : Direction} {b : Option Point}
    (h : nl.signalAt b = none) : nl.bitDriver direction b = direction.absent := by
  simp [bitDriver, h]

lemma boundBits_eq_zip : nl.boundBits port t =
    (wires port 0 t.width).zip (t.bits.map (nl.bitDriver t.direction)) := by
  refine List.ext_getElem (by simp [boundBits, Terminal.width]) fun i h₁ h₂ => ?_
  simp [boundBits]

lemma map_bitDriver_of_none (h : ∀ b ∈ t.bits, nl.signalAt b = none) :
    t.bits.map (nl.bitDriver t.direction) = List.replicate t.width t.direction.absent := by
  rw [Terminal.width, ← List.map_const']
  exact List.map_congr_left fun b hb => bitDriver_none (h b hb)

lemma map_bitDriver_of_busRange {r : BusRange} (h : nl.busRange? t = some r) :
    t.bits.map (nl.bitDriver t.direction)
      = (wires (Names.bus r.net.toNat) r.lo.toNat t.width).map .wire := by
  obtain ⟨-, -, hbits⟩ := busRange?_signals h
  refine List.ext_getElem (by simp [Terminal.width]) fun i h₁ h₂ => ?_
  have hi : i < t.bits.length := by simpa using h₁
  rw [List.getElem_map, bitDriver_some (hbits i hi), List.getElem_map, getElem_wires]
  rfl

/-- The bits of a range, driven by the bits of a whole port. -/
lemma drivenBits_of_busRange {r : BusRange} (h : nl.busRange? t = some r) : nl.drivenBits port t =
    (wires (Names.bus r.net.toNat) r.lo.toNat t.width).zip ((wires port 0 t.width).map .wire) := by
  obtain ⟨-, -, hbits⟩ := busRange?_signals h
  refine filterMap_of_map_some (List.ext_getElem (by simp [Terminal.width]) fun i h₁ h₂ => ?_)
  have hi : i < t.bits.length := by simpa using h₁
  simp [hbits i hi, Ref.wire]

lemma drivenBits_eq_nil (h : ∀ b ∈ t.bits, nl.signalAt b = none) : nl.drivenBits port t = [] := by
  rw [drivenBits, List.filterMap_eq_nil_iff]
  rintro ⟨b, i⟩ hx
  simp [h b (List.fst_mem_of_mem_zipIdx hx)]

/-! ## Warnings -/

/-- What is reported is one of three things, as `missingWarnings` says. -/
lemma warnings_wiresOf :
    (nl.wiresOf t).warnings port t.direction.mayFloat = nl.missingWarnings port t := by
  cases hd : t.direction
  case output | inout =>
    cases hs : nl.wiresOf t with
    | single signal =>
        cases signal <;> simp [Wires.warnings, missingWarnings, hd, Direction.mayFloat]
    | _ => simp [Wires.warnings, missingWarnings, hd, Direction.mayFloat]
  case input =>
    simp only [missingWarnings, hd]
    refine wiresOf_cases (fun b hb => ?_) (fun hw h => ?_) (fun hw h r hr => ?_) (fun hw h => ?_)
    · cases hs : nl.signalAt b <;>
        simp [Wires.warnings, Direction.mayFloat, hb, hs, Terminal.width]
    · rw [if_pos h]
      simp [Wires.warnings, Direction.mayFloat, hw]
    · -- a range carries every bit, so none is missing
      rw [if_neg h]
      obtain ⟨-, -, hbits⟩ := busRange?_signals hr
      symm
      simp only [Wires.warnings, List.map_eq_nil_iff, List.filter_eq_nil_iff]
      rintro ⟨b, i⟩ hx
      obtain ⟨hi, hb⟩ := List.getElem?_eq_some_iff.1 (List.mem_zipIdx_iff_getElem?.1 hx)
      simp only at hi hb
      simp [← hb, hbits i hi]
    · rw [if_neg h]
      simp [Wires.warnings, Direction.mayFloat, missingBits, List.zipIdx_map, List.filter_map,
        Function.comp_def]

/-! ## Assignments -/

lemma signalAt_reads {b : Option Point} {signal : Ref} (h : nl.signalAt b = some signal)
    (d : Dialect) : Reads nl.signals d (signal.text d) [signal.wire] := by
  obtain ⟨p, -, hp⟩ := Option.bind_eq_some_iff.1 h
  exact signalOf_reads hp d

lemma busRange_reads {r : BusRange} (h : nl.busRange? t = some r) (d : Dialect) :
    Reads nl.signals d ((Ref.range (Names.bus r.net.toNat) r.hi.toNat r.lo.toNat).text d)
      (wires (Names.bus r.net.toNat) r.lo.toNat t.width) := by
  obtain ⟨⟨width, hmem, hbus, hhi⟩, hlen, -⟩ := busRange?_signals h
  have hw := (busRange?_eq_some_iff.1 h).1
  have hcount : r.hi.toNat + 1 - r.lo.toNat = t.width := by omega
  exact hcount ▸ reads_range hmem hbus (by omega) hhi d

variable {targets sources : List Signal} {d : Dialect}

lemma ofRef_reads {target source : Ref} {bits drivers : List Wire}
    (ht : Reads targets d (target.text d) bits) (hs : Reads sources d (source.text d) drivers)
    (hlen : bits.length = drivers.length) :
    ReadsLine targets sources d ((Assignment.ofRef target source).line d)
      (bits.zip (drivers.map .wire)) :=
  .assign ht (.signal hs) (by simpa using hlen)

lemma ofZeros_reads {target : Ref} {bits : List Wire} {n : ℕ}
    (ht : Reads targets d (target.text d) bits) (hn : 0 < n) (hlen : bits.length = n) :
    ReadsLine targets sources d ((Assignment.ofZeros target n).line d)
      (bits.zip (List.replicate n .zero)) :=
  .assign ht (readsSource_zeros hn d) (by simpa using hlen)

/-- The bits of an input, each with a line of its own. -/
lemma joinBits_reads_input (nl : Netlist) (port : String) (d : Dialect) {width : ℕ}
    (hwidth : 1 < width) :
    ∀ (bits : List (Option Point)) (k : ℕ), k + bits.length ≤ width →
      ReadsEach (ReadsLine [⟨port, width⟩] nl.signals d)
        (((bits.zipIdx k).flatMap fun b => joinBit false (.bit port b.2) (nl.signalAt b.1)).map
          (Assignment.line d))
        ((bits.zipIdx k).map fun b => (⟨port, b.2⟩, nl.bitDriver .input b.1))
  | [], _, _ => .nil
  | b :: bits, k, hk => by
      have ih := joinBits_reads_input nl port d hwidth bits (k + 1) (by simp at hk; omega)
      have hport : Reads [⟨port, width⟩] d ((Ref.bit port k).text d) [⟨port, k⟩] :=
        reads_bit (by simp) hwidth (by simp at hk; omega) d
      rw [List.zipIdx_cons, List.flatMap_cons, List.map_cons, List.map_append]
      cases hs : nl.signalAt b with
      | none =>
          rw [bitDriver_none hs]
          exact .cons (ofZeros_reads hport Nat.one_pos rfl) ih
      | some signal =>
          rw [bitDriver_some hs]
          exact .cons (ofRef_reads hport (signalAt_reads hs d) rfl) ih

/-- The bits of a terminal that may drive, each that has a signal with a line of its own. -/
lemma joinBits_reads_output (nl : Netlist) (port : String) (d : Dialect) {width : ℕ}
    (hwidth : 1 < width) :
    ∀ (bits : List (Option Point)) (k : ℕ), k + bits.length ≤ width →
      ReadsEach (ReadsLine nl.signals [⟨port, width⟩] d)
        (((bits.zipIdx k).flatMap fun b => joinBit true (.bit port b.2) (nl.signalAt b.1)).map
          (Assignment.line d))
        ((bits.zipIdx k).filterMap fun b =>
          (nl.signalAt b.1).map fun signal => (signal.wire, .wire ⟨port, b.2⟩))
  | [], _, _ => .nil
  | b :: bits, k, hk => by
      have ih := joinBits_reads_output nl port d hwidth bits (k + 1) (by simp at hk; omega)
      have hport : Reads [⟨port, width⟩] d ((Ref.bit port k).text d) [⟨port, k⟩] :=
        reads_bit (by simp) hwidth (by simp at hk; omega) d
      rw [List.zipIdx_cons, List.flatMap_cons, List.map_append]
      cases hs : nl.signalAt b with
      | none =>
          rw [List.filterMap_cons_none (by simp [hs])]
          exact ih
      | some signal =>
          rw [List.filterMap_cons_some (b := (signal.wire, .wire ⟨port, k⟩)) (by simp [hs])]
          exact .cons (ofRef_reads (signalAt_reads hs d) hport rfl) ih

lemma port_reads (port : String) (width : ℕ) (d : Dialect) :
    Reads [⟨port, width⟩] d ((Ref.whole port).text d) (wires port 0 width) :=
  Reads.whole (List.mem_singleton_self _)

/-- **An input gets its bits**, whatever the way it meets the signals. -/
theorem assignments_reads_input (hd : t.direction = .input) (hw : 1 ≤ t.width) :
    ReadsEach (ReadsLine [⟨port, t.width⟩] nl.signals d)
      (((nl.wiresOf t).assignments port false t.width).map (Assignment.line d))
      (nl.boundBits port t) := by
  refine wiresOf_cases (fun b hb => ?_) (fun _ h => ?_) (fun _ _ r hr => ?_) (fun hw' _ => ?_)
  · have hport := port_reads port 1 d
    have hw : t.width = 1 := by simp [Terminal.width, hb]
    have hbits : nl.boundBits port t = [(⟨port, 0⟩, nl.bitDriver .input b)] := by
      simp [boundBits, hb, hd]
    rw [hbits, hw]
    cases hs : nl.signalAt b with
    | none =>
        rw [bitDriver_none hs]
        exact .single (ofZeros_reads hport Nat.one_pos rfl)
    | some signal =>
        rw [bitDriver_some hs]
        exact .single (ofRef_reads hport (signalAt_reads hs d) rfl)
  · rw [boundBits_eq_zip, map_bitDriver_of_none h, hd]
    exact .single (ofZeros_reads (port_reads port t.width d) hw (by simp))
  · rw [boundBits_eq_zip, map_bitDriver_of_busRange hr]
    exact .single (ofRef_reads (port_reads port t.width d) (busRange_reads hr d) (by simp))
  · have h := joinBits_reads_input nl port d (show 1 < t.width by omega) t.bits 0
      (by simp [Terminal.width])
    simpa [Wires.assignments, boundBits, hd, List.zipIdx_map, List.flatMap_map] using h

/-- **A terminal that may drive gives the bits that have a signal**, whatever the way it meets the
signals. -/
theorem assignments_reads_output :
    ReadsEach (ReadsLine nl.signals [⟨port, t.width⟩] d)
      (((nl.wiresOf t).assignments port true t.width).map (Assignment.line d))
      (nl.drivenBits port t) := by
  refine wiresOf_cases (fun b hb => ?_) (fun _ h => ?_) (fun _ _ r hr => ?_) (fun hw' h => ?_)
  · have hport := port_reads port 1 d
    have hw : t.width = 1 := by simp [Terminal.width, hb]
    rw [hw]
    cases hs : nl.signalAt b with
    | none =>
        rw [drivenBits_eq_nil (by simpa [hb] using hs)]
        exact .nil
    | some signal =>
        have hbits : nl.drivenBits port t = [(signal.wire, .wire ⟨port, 0⟩)] := by
          simp [drivenBits, hb, hs]
        rw [hbits]
        exact .single (ofRef_reads (signalAt_reads hs d) hport rfl)
  · rw [drivenBits_eq_nil h]
    exact .nil
  · rw [drivenBits_of_busRange hr]
    exact .single (ofRef_reads (busRange_reads hr d) (port_reads port t.width d) (by simp))
  · have hw : 1 < t.width := by
      -- an empty terminal has no signal at any of its bits
      obtain ⟨b, hb, -⟩ := by simpa using h
      have := List.length_pos_of_mem hb
      simp only [Terminal.width] at *
      omega
    have h := joinBits_reads_output nl port d hw t.bits 0 (by simp [Terminal.width])
    simpa [Wires.assignments, drivenBits, List.zipIdx_map, List.flatMap_map] using h

lemma missingWarnings_severity : ∀ w ∈ nl.missingWarnings port t,
    w.diagnostic.severity = .severeWarning := by
  intro w hw
  rw [missingWarnings] at hw
  split at hw
  case h_1 | h_2 => cases hw
  case h_3 =>
    split at hw
    case isTrue => split at hw <;> obtain rfl := List.mem_singleton.1 hw <;> rfl
    case isFalse =>
      obtain ⟨b, -, rfl⟩ := List.mem_map.1 hw
      rfl

/-- **A terminal joined by assignments is joined bit by bit.**  An input gets its bits, each once,
and each zero where it has no signal; a terminal that may drive gives each bit that has a signal,
and nothing else is written.  Joining never fails, and reports what is missing. -/
theorem pinAssignments_reads (nl : Netlist) {c : Component} {index : ℕ}
    (ht : c.terminal? index = some t) (hw : 1 ≤ t.width) (port : String) :
    ∃ assignments,
      nl.pinAssignments port c index = ⟨nl.missingWarnings port t, .ok assignments⟩
      ∧ (∀ w ∈ nl.missingWarnings port t, w.diagnostic.severity = .severeWarning)
      ∧ ∀ d,
        (t.direction = .input →
          ReadsEach (ReadsLine [⟨port, t.width⟩] nl.signals d)
            (assignments.map (Assignment.line d)) (nl.boundBits port t))
        ∧ (t.direction ≠ .input →
          ReadsEach (ReadsLine nl.signals [⟨port, t.width⟩] d)
            (assignments.map (Assignment.line d)) (nl.drivenBits port t)) := by
  refine ⟨(nl.wiresOf t).assignments port t.direction.mayFloat t.width, ?_,
    missingWarnings_severity, fun d => ⟨fun hd => ?_, fun hd => ?_⟩⟩
  · have hterminal : c.terminalAt index = .succeed t := by
      rw [Component.terminalAt, ht]
      rfl
    rw [pinAssignments, hterminal, ← warnings_wiresOf]
    show Attempt.andThen (.succeed t) _ = _
    simp only [Attempt.andThen, Attempt.succeed, List.nil_append,
      if_neg (Nat.one_le_iff_ne_zero.1 hw)]
  · rw [hd]
    exact assignments_reads_input hd hw
  · have hfloat : t.direction.mayFloat = true := by simpa [Direction.mayFloat] using hd
    rw [hfloat]
    exact assignments_reads_output

/-- The bits of an input: one on a view of a bus, one without a signal, one on a single wire. -/
theorem pinAssignments_reads_scattered :
    let nl : Netlist :=
      { nets := #[{ width := 8 }, { width := 4, parent := some ⟨0, 2⟩ }, { width := 1 }] }
    let t : Terminal := { direction := .input, bits := [some ⟨1, 1⟩, none, some ⟨2, 0⟩] }
    nl.boundBits "D" t =
      [(⟨"D", 0⟩, .wire ⟨"s_logisimBus0", 3⟩), (⟨"D", 1⟩, .zero),
        (⟨"D", 2⟩, .wire ⟨"s_logisimNet2", 0⟩)]
    ∧ nl.missingWarnings "D" t = [.unconnectedBit "D" 1]
    ∧ ∃ assignments,
      nl.pinAssignments "D" { terminals := [t] } 0 = ⟨nl.missingWarnings "D" t, .ok assignments⟩
      ∧ ∀ d, ReadsEach (ReadsLine [⟨"D", 3⟩] nl.signals d)
        (assignments.map (Assignment.line d)) (nl.boundBits "D" t) := by
  intro nl t
  have ht : Component.terminal? { terminals := [t] } 0 = some t := rfl
  obtain ⟨assignments, h, -, hreads⟩ := pinAssignments_reads nl ht (by decide) "D"
  exact ⟨by decide, by decide, assignments, h, fun d => (hreads d).1 rfl⟩

end Netlist

end Netscribe
