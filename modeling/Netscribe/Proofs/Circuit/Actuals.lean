import Netscribe.Proofs.Circuit.Declared
import Netscribe.Proofs.Design.WellFormed
import Netscribe.Proofs.Hdl.Size

/-!
# What an instance is bound to

An instance binds the ports of its circuit to what the circuit around it declares: clocks to the port
of the same name, bubbles to a part of the port of the same name, and pins to signals.  How many
clock trees and bubbles there are, and how wide a pin is, is said of both circuits and of the
instance, and nothing compares what is said when a design is accepted.  Where it agrees, what the
instance is bound to is declared and as wide as its ports, and where names are different, only there.

* `Netlist.visible` — what an instance can be bound to.
* `BubblesFit`, `Terminal.Fits` — a part of a bubble bus and a terminal that have as many bits as a
  port.
* `Netlist.Agrees` — what is said of an instance, its circuit and the circuit around it agrees.
* `PortMap.Legal` — a port map that refers to declared ports, and has the bits of the bound ones.
* **`Design.legal_of_agrees`** — when the port map of an instance is legal.
-/

namespace Netscribe

/-! ## What is visible in a circuit -/

def Port.bits (p : Port) : ℕ :=
  max p.width 1

/-- What a port is for the inside of its circuit. -/
def Port.signal (p : Port) : Signal :=
  ⟨p.name, p.bits⟩

/-- The port of some bubbles has one bit for each. -/
lemma Shared.bits_bubbles {nl : Netlist} {direction : Direction} (h : 0 < nl.bubbleCount direction) :
    ((Shared.bubbles direction).port nl).bits = nl.bubbleCount direction := by
  show max (bubbleWidth _) 1 = _
  rw [bubbleWidth]
  split <;> omega

namespace Netlist

variable {nl : Netlist} {p : Port} {s : Shared} {n : ℕ}

/-- **What can be referred to in a circuit**: its ports and its signals. -/
def visible (nl : Netlist) : List Signal :=
  nl.ports.map Port.signal ++ nl.signals

/-- **Names of pins are apart** from those of signals, and from those that circuits share. -/
def PinsApart (nl : Netlist) : Prop :=
  ∀ name ∈ nl.identifiers, ¬ Names.IsShared name ∧ name ∉ nl.signals.map Signal.name

lemma mem_identifiers_of_mem_pinPorts {direction : Direction}
    (h : p ∈ pinPorts direction (nl.pins direction)) : p.name ∈ nl.identifiers := by
  have hname := name_mem_of_mem_pinPorts h
  simp only [identifiers_eq, List.mem_append]
  cases direction with
  | input => exact .inl (.inl hname)
  | output => exact .inl (.inr hname)
  | inout => exact .inr hname

lemma port_mem_ports (h : s ∈ nl.shared) : s.port nl ∈ nl.ports :=
  mem_ports_iff.2 (.inl ⟨s, h, rfl⟩)

/-- A shared name is that of the port for it, if pins are apart. -/
lemma eq_of_shared_visible (hapart : nl.PinsApart) (h : ⟨s.name, n⟩ ∈ nl.visible) :
    s ∈ nl.shared ∧ n = (s.port nl).bits := by
  rcases List.mem_append.1 h with h | h
  · obtain ⟨p, hp, hsignal⟩ := List.mem_map.1 h
    obtain ⟨hname, hbits⟩ := Signal.mk.inj hsignal
    rcases mem_ports_iff.1 hp with ⟨s', hin, rfl⟩ | ⟨direction, hpin⟩
    · rw [Shared.name_port] at hname
      obtain rfl := Shared.name_injective hname
      exact ⟨hin, hbits.symm⟩
    · exact absurd (hname ▸ s.isShared_name) (hapart _ (mem_identifiers_of_mem_pinPorts hpin)).1
  · exact absurd s.isShared_name (not_isShared_of_mem_signals (List.mem_map_of_mem h))

/-- A signal is not a port as well, if pins are apart. -/
lemma eq_of_signal_visible (hapart : nl.PinsApart) {name : String} {m : ℕ}
    (hsignal : ⟨name, m⟩ ∈ nl.signals) (h : ⟨name, n⟩ ∈ nl.visible) : n = m := by
  have hname : name ∈ nl.signals.map Signal.name := List.mem_map_of_mem hsignal
  rcases List.mem_append.1 h with h | h
  · obtain ⟨p, hp, hp'⟩ := List.mem_map.1 h
    obtain ⟨rfl, -⟩ := Signal.mk.inj hp'
    rcases mem_ports_iff.1 hp with ⟨s, -, rfl⟩ | ⟨direction, hpin⟩
    · exact absurd (s.name_port ▸ s.isShared_name) (not_isShared_of_mem_signals hname)
    · exact absurd hname (hapart _ (mem_identifiers_of_mem_pinPorts hpin)).2
  · exact (Signal.mk.inj (List.inj_on_of_nodup_map (signals_nodup nl) h hsignal rfl)).2

end Netlist

/-! ## Bubbles -/

/-- **Bubbles fit into a bus**: they are all of it, or a range of it. -/
inductive BubblesFit (enclosing : ℕ) : Option BubbleRange → ℕ → Prop
  /-- A bus of one bubble has no parts, whatever the range. -/
  | all {range} : enclosing ≤ 1 ∨ range = none → BubblesFit enclosing range enclosing
  | part {range : BubbleRange} {count} : 1 < enclosing → range.first.toNat ≤ range.last.toNat →
      range.last.toNat < enclosing → count + range.first.toNat = range.last.toNat + 1 →
      BubblesFit enclosing (some range) count

section Bubbles

variable {scope : List Signal} {bus : String} {enclosing count : ℕ} {range : Option BubbleRange}

lemma bubbleSlice_whole (h : enclosing ≤ 1 ∨ range = none) :
    bubbleSlice bus range enclosing = .whole bus := by
  rcases h with h | rfl <;> simp [bubbleSlice, *]

lemma bubbleSlice_part {r : BubbleRange} (h : 1 < enclosing) :
    bubbleSlice bus (some r) enclosing =
      if r.first = r.last then .bit bus r.first.toNat else .range bus r.last.toNat r.first.toNat := by
  simp [bubbleSlice, Nat.not_le.2 h]

lemma BubblesFit.pos (h : BubblesFit enclosing range count) (hcount : 0 < count) : 0 < enclosing := by
  cases h with
  | all => exact hcount
  | part hmany => exact Nat.zero_lt_of_lt hmany

/-- Bubbles that fit are bits of the bus, where it is declared. -/
lemma BubblesFit.has (h : BubblesFit enclosing range count) (hbus : ⟨bus, enclosing⟩ ∈ scope) :
    (bubbleSlice bus range enclosing).Has scope count := by
  cases h with
  | all h =>
      rw [bubbleSlice_whole h]
      exact .whole hbus
  | part hmany hle hlast hcount =>
      rw [bubbleSlice_part hmany]
      split
      · next hone =>
          rw [hone] at hcount
          obtain rfl : count = 1 := by omega
          exact .bit hbus hmany (hone ▸ hlast)
      · exact .range hbus hmany hle hlast hcount

/-- Bubbles that are bits of the bus fit, if it is declared once. -/
lemma BubblesFit.of_has (hbus : ∀ n, ⟨bus, n⟩ ∈ scope → n = enclosing)
    (h : (bubbleSlice bus range enclosing).Has scope count) : BubblesFit enclosing range count := by
  by_cases hall : enclosing ≤ 1 ∨ range = none
  · rw [bubbleSlice_whole hall] at h
    cases h with
    | whole hmem =>
        obtain rfl := hbus _ hmem
        exact .all hall
  · obtain ⟨hone, hsome⟩ := not_or.1 hall
    have hmany := Nat.not_le.1 hone
    obtain ⟨r, rfl⟩ := Option.ne_none_iff_exists'.1 hsome
    rw [bubbleSlice_part hmany] at h
    split at h
    · next hends =>
        cases h with
        | bit hmem _ hindex =>
            rw [hbus _ hmem, hends] at hindex
            exact .part hmany (hends ▸ Nat.le_refl _) hindex (by rw [hends]; omega)
    · cases h with
      | range hmem _ hle hlast hcount => exact .part hmany hle (hbus _ hmem ▸ hlast) hcount

end Bubbles

/-! ## Terminals -/

/-- **A terminal fits a port**: it has as many bits, or may be left open and is. -/
def Terminal.Fits (nl : Netlist) (t : Terminal) (n : ℕ) : Prop :=
  max t.width 1 = n ∨ t.direction.mayFloat = true ∧ ∀ b ∈ t.bits, nl.signalAt b = none

namespace Netlist

variable {nl : Netlist} {t : Terminal} {d : Dialect} {port : String} {n : ℕ}

lemma has_signalAt {b : Option Point} {r : Ref} (h : nl.signalAt b = some r) :
    r.Has nl.signals 1 := by
  obtain ⟨p, -, hp⟩ := Option.bind_eq_some_iff.1 h
  obtain ⟨root, net, -, -, rfl⟩ := signalOf_eq_some_iff.1 hp
  have hdeclared := declared_signalOf hp
  rw [bitOfNet] at hdeclared ⊢
  split at hdeclared
  · next hbus =>
      rw [if_pos hbus]
      cases hdeclared with
      | bit hmem hwide hindex => exact .bit hmem hwide hindex
  · next hbus =>
      rw [if_neg hbus]
      cases hdeclared with
      | wire hmem => exact .whole hmem

lemma signals_subset_visible : nl.signals ⊆ nl.visible :=
  List.subset_append_right _ _

/-- A signal has one width, if pins are apart. -/
lemma eq_one_of_signalAt (hapart : nl.PinsApart) {b : Option Point} {r : Ref}
    (h : nl.signalAt b = some r) (hhas : r.Has nl.visible n) : n = 1 := by
  cases has_signalAt h with
  | whole hmem =>
      cases hhas with
      | whole hmem' => exact eq_of_signal_visible hapart hmem hmem'
  | bit =>
      cases hhas with
      | bit => rfl
  | range hmem hwide hle hhi hn =>
      cases hhas with
      | range _ _ _ _ hn' => omega

lemma has_bitActual (b : Option Point) :
    (bitActual t.direction.mayFloat (nl.signalAt b)).Has nl.visible 1 := by
  cases hs : nl.signalAt b with
  | some r => exact .ref ((has_signalAt hs).mono signals_subset_visible)
  | none =>
      rw [bitActual]
      split <;> simp

lemma eq_one_of_bitActual (hapart : nl.PinsApart) {b : Option Point}
    (h : (bitActual t.direction.mayFloat (nl.signalAt b)).Has nl.visible n) : n = 1 := by
  cases hs : nl.signalAt b with
  | some r =>
      rw [hs] at h
      exact eq_one_of_signalAt hapart hs (Actual.has_ref_iff.1 h)
  | none =>
      rw [hs, bitActual] at h
      split at h <;> simpa using h

lemma fits_iff_of_none (h : ∀ b ∈ t.bits, nl.signalAt b = none) :
    t.Fits nl n ↔ max t.width 1 = n ∨ t.direction.mayFloat = true :=
  or_congr_right (and_iff_left h)

lemma fits_iff_of_some (h : ¬ ∀ b ∈ t.bits, nl.signalAt b = none) :
    t.Fits nl n ↔ max t.width 1 = n :=
  or_iff_left fun hnone => h hnone.2

lemma has_absent_iff {mayFloat : Bool} {scope : List Signal} {width : ℕ} :
    (if mayFloat then Actual.unconnected else .zeros width).Has scope n
      ↔ max width 1 = n ∨ mayFloat = true := by
  cases mayFloat <;> simp [eq_comm]

lemma length_bitActuals (nl : Netlist) (t : Terminal) :
    ((t.bits.map nl.signalAt).map (bitActual t.direction.mayFloat)).length = t.width := by
  simp [Terminal.width]

/-- **A terminal that fits binds all bits of a port.** -/
lemma binds_of_fits (h : t.Fits nl n) :
    Binds nl.visible
      (d.associations port ((nl.wiresOf t).binding t.direction.mayFloat t.width)) n := by
  refine wiresOf_cases (fun b hb => ?_) (fun _ hnone => ?_) (fun _ hsome r hr => ?_)
    (fun _ hsome => ?_)
  · have hwidth : t.width = 1 := by simp [Terminal.width, hb]
    cases hs : nl.signalAt b with
    | none =>
        rw [fits_iff_of_none (by simpa [hb] using hs), hwidth] at h
        exact binds_whole_iff.2 (has_absent_iff.2 h)
    | some r =>
        rw [fits_iff_of_some (by simp [hb, hs]), hwidth] at h
        obtain rfl := h
        exact binds_whole_iff.2 (.ref ((has_signalAt hs).mono signals_subset_visible))
  · exact binds_whole_iff.2 (has_absent_iff.2 ((fits_iff_of_none hnone).1 h))
  · have hn := (fits_iff_of_some hsome).1 h
    obtain ⟨⟨width, hmem, hwide, hhi⟩, hlen, -⟩ := busRange?_signals hr
    have hmany := (busRange?_eq_some_iff.1 hr).1
    exact binds_whole_iff.2
      (.ref (.range (signals_subset_visible hmem) hwide (by omega) hhi (by omega)))
  · have hn := (fits_iff_of_some hsome).1 h
    have hne : t.bits ≠ [] := by
      rintro hnil
      exact hsome (by simp [hnil])
    have hpos : 0 < t.width := List.length_pos_iff.2 hne
    have hwidth : n = t.width := by omega
    rw [hwidth, ← length_bitActuals nl t]
    exact binds_bitAssociations (by simpa using fun b _ => has_bitActual b) d (by simpa using hne)

/-- **A terminal that binds all bits of a port fits**, if pins are apart. -/
lemma fits_of_binds (hapart : nl.PinsApart)
    (h : Binds nl.visible
      (d.associations port ((nl.wiresOf t).binding t.direction.mayFloat t.width)) n) :
    t.Fits nl n := by
  revert h
  refine wiresOf_cases (fun b hb h => ?_) (fun _ hnone h => ?_) (fun _ hsome r hr h => ?_)
    (fun _ hsome h => ?_)
  · have hwidth : t.width = 1 := by simp [Terminal.width, hb]
    cases hs : nl.signalAt b with
    | none =>
        rw [fits_iff_of_none (by simpa [hb] using hs), hwidth]
        rw [hs] at h
        exact has_absent_iff.1 (binds_whole_iff.1 h)
    | some r =>
        rw [fits_iff_of_some (by simp [hb, hs]), hwidth]
        rw [hs] at h
        exact (eq_one_of_signalAt hapart hs (Actual.has_ref_iff.1 (binds_whole_iff.1 h))).symm
  · exact (fits_iff_of_none hnone).2 (has_absent_iff.1 (binds_whole_iff.1 h))
  · rw [fits_iff_of_some hsome]
    obtain ⟨-, hlen, -⟩ := busRange?_signals hr
    have hmany := (busRange?_eq_some_iff.1 hr).1
    cases Actual.has_ref_iff.1 (binds_whole_iff.1 h) with
    | range _ _ _ _ hn => omega
  · rw [fits_iff_of_some hsome]
    have hpos : 0 < t.width := by
      obtain ⟨b, hb, -⟩ := by simpa using hsome
      exact List.length_pos_of_mem hb
    have hn := length_of_binds (by simpa using fun b _ n => eq_one_of_bitActual hapart) h
    rw [length_bitActuals] at hn
    omega

end Netlist

/-! ## Agreement -/

namespace Netlist

variable {nl child : Netlist} {x : Component} {s : Shared}

/-- **What is said of an instance agrees** with what its circuit and the circuit around it say. -/
structure Agrees (nl : Netlist) (x : Component) (child : Netlist) : Prop where
  clockTrees : child.clockTrees ≤ nl.clockTrees
  globalClock : child.requiresGlobalClock = true → nl.requiresGlobalClock = true
  bubbles : ∀ direction, 0 < child.bubbleCount direction →
    BubblesFit (nl.bubbleCount direction) (x.bubbles.range direction) (child.bubbleCount direction)
  /-- The terminal for a pin has the width of the pin, if no other port has the pin's name. -/
  pins : ∀ direction, ∀ p ∈ pinPorts direction (child.pins direction),
    (child.ports.map Port.name).count p.name = 1 → ∀ index t,
      x.terminalIndex? p.name direction = some index → x.terminal? index = some t → t.Fits nl p.bits

/-- What is shared has the bits of the port it is bound to, where all agrees. -/
lemma Agrees.has_passed (h : nl.Agrees x child) (hs : s ∈ child.shared) :
    (s.passed nl x).Has (nl.ports.map Port.signal) (s.port child).bits := by
  have hport : ∀ s ∈ nl.shared, (s.port nl).signal ∈ nl.ports.map Port.signal :=
    fun s hs => List.mem_map_of_mem (port_mem_ports hs)
  cases s with
  | clockTree tree =>
      have htree := Nat.lt_of_lt_of_le (clockTree_mem_shared.1 hs)
        (UInt32.le_iff_toNat_le.1 h.clockTrees)
      exact .whole (hport (.clockTree tree) (clockTree_mem_shared.2 htree))
  | globalClock =>
      have hclock := h.globalClock (globalClock_mem_shared.1 hs)
      exact .whole (hport .globalClock (globalClock_mem_shared.2 hclock))
  | bubbles direction =>
      have hcount := bubbles_mem_shared.1 hs
      have hfit := h.bubbles direction hcount
      have hpos := hfit.pos hcount
      have hbus := hport _ (bubbles_mem_shared.2 hpos)
      rw [Port.signal, Shared.bits_bubbles hpos] at hbus
      rw [Shared.bits_bubbles hcount]
      exact hfit.has hbus

end Netlist

/-- The references of the right side of an entry. -/
def Connection.refs : Connection → List Ref
  | .single a => a.refs
  | .concatenation as => as.flatMap Actual.refs

/-- **A legal port map** of an instance of `child` in the circuit `nl`. -/
structure PortMap.Legal (d : Dialect) (nl child : Netlist) (map : PortMap) : Prop where
  /-- Clocks and bubbles are those of declared ports, and indices lie inside of them. -/
  shared : ∀ e ∈ map.toList, ∀ r ∈ e.2.actual.refs, Names.IsShared r.name →
    ∃ n, r.Has (nl.ports.map Port.signal) n
  /-- A port is bound to as many bits as it has, if no other port has its name. -/
  bits : ∀ p ∈ child.ports, (child.ports.map Port.name).count p.name = 1 →
    Binds nl.visible (map.entries d p.name) p.bits

lemma Binding.refs_associations {d : Dialect} {port : String} {b : Binding} {a : Association}
    (ha : a ∈ d.associations port b) {r : Ref} (hr : r ∈ a.actual.refs) : r ∈ b.refs := by
  cases b with
  | whole actual =>
      obtain rfl := List.mem_singleton.1 ha
      exact hr
  | bits actuals =>
      rw [Dialect.associations, Dialect.bitAssociations.eq_def] at ha
      split at ha
      · obtain rfl := List.mem_singleton.1 ha
        simpa [refs, Connection.refs] using hr
      · cases d with
        | vhdl =>
            obtain ⟨⟨actual, i⟩, hmem, rfl⟩ := List.mem_map.1 ha
            exact List.mem_flatMap.2 ⟨actual, List.fst_mem_of_mem_zipIdx hmem, hr⟩
        | verilog =>
            obtain rfl := List.mem_singleton.1 ha
            simpa [refs, Connection.refs] using hr

lemma Ref.Declared.name_mem {scope : List Signal} {r : Ref} (h : r.Declared scope) :
    r.name ∈ scope.map Signal.name := by
  cases h with
  | wire hmem => exact List.mem_map_of_mem hmem
  | bit hmem | range hmem => exact List.mem_map_of_mem hmem

namespace Netlist

variable {nl child : Netlist} {x : Component} {bindings : List (String × Binding)} {d : Dialect}

/-- **A port map is legal where all agrees.** -/
theorem Agrees.legal (hagrees : nl.Agrees x child)
    (h : (nl.instanceBindings x child).outcome = .ok bindings) (d : Dialect) :
    (PortMap.ofBindings d bindings).Legal d nl child := by
  refine ⟨fun e he r hr hshared => ?_, fun p hp hone => ?_⟩
  · obtain ⟨b, hb, a, ha, rfl⟩ := PortMap.mem_of_mem_ofBindings he
    have hr := Binding.refs_associations ha hr
    rcases (mem_instanceBindings_iff h).1 hb with ⟨s, hin, rfl⟩ | ⟨direction, name, -, hpin⟩
    · obtain rfl := List.mem_singleton.1 hr
      exact ⟨_, hagrees.has_passed hin⟩
    · -- what a terminal meets is a signal
      obtain ⟨index, binding, -, hbinding, rfl⟩ := pinBinding_eq_ok_iff.1 hpin
      obtain ⟨t, -, rfl⟩ := terminalBinding_eq_ok_iff.1 hbinding
      exact absurd hshared (not_isShared_of_mem_signals (refs_binding t r hr).name_mem)
  · rcases mem_ports_iff.1 hp with ⟨s, hin, rfl⟩ | ⟨direction, hpin⟩
    · rw [Shared.name_port] at hone ⊢
      refine Binds.perm ?_ (perm_entries_shared h hin hone d).symm
      exact binds_whole_iff.2 (.ref ((hagrees.has_passed hin).mono (List.subset_append_left _ _)))
    · obtain ⟨index, t, hindex, ht, hperm⟩ := perm_entries_pin h hpin hone d
      exact (binds_of_fits (hagrees.pins direction p hpin hone index t hindex ht)).perm hperm.symm

/-- **All agrees where a port map is legal**, if names are different. -/
theorem agrees_of_legal (hapart : nl.PinsApart) (hnodup : (child.ports.map Port.name).Nodup)
    (h : (nl.instanceBindings x child).outcome = .ok bindings)
    (hlegal : (PortMap.ofBindings d bindings).Legal d nl child) : nl.Agrees x child := by
  have hone : ∀ p ∈ child.ports, (child.ports.map Port.name).count p.name = 1 :=
    fun p hp => List.count_eq_one_of_mem hnodup (List.mem_map_of_mem hp)
  have hpassed : ∀ s ∈ child.shared,
      (s.passed nl x).Has nl.visible (s.port child).bits := by
    intro s hin
    have hs := hone _ (port_mem_ports hin)
    have hbinds := hlegal.bits _ (port_mem_ports hin) hs
    rw [Shared.name_port] at hs hbinds
    exact Actual.has_ref_iff.1 (binds_whole_iff.1 (hbinds.perm (perm_entries_shared h hin hs d)))
  refine ⟨?_, fun hclock => ?_, fun direction hpos => ?_, fun direction p hp hp' index t hindex ht => ?_⟩
  · -- the first tree that the enclosing circuit does not have would be passed
    refine UInt32.not_lt.1 fun hlt => ?_
    have htree : .clockTree nl.clockTrees.toNat ∈ child.shared :=
      clockTree_mem_shared.2 (UInt32.lt_iff_toNat_lt.1 hlt)
    cases hpassed _ htree with
    | whole hmem =>
        have hin := (eq_of_shared_visible (s := .clockTree _) hapart hmem).1
        exact Nat.lt_irrefl _ (clockTree_mem_shared.1 hin)
  · cases hpassed _ (globalClock_mem_shared.2 hclock) with
    | whole hmem =>
        exact globalClock_mem_shared.1 (eq_of_shared_visible (s := .globalClock) hapart hmem).1
  · have hhas := hpassed _ (bubbles_mem_shared.2 hpos)
    rw [Shared.bits_bubbles hpos] at hhas
    refine .of_has (fun n hmem => ?_) hhas
    obtain ⟨hin, hn⟩ := eq_of_shared_visible (s := .bubbles direction) hapart hmem
    rw [hn, Shared.bits_bubbles (bubbles_mem_shared.1 hin)]
  · obtain ⟨index', t', hindex', ht', hperm⟩ := perm_entries_pin h hp hp' d
    obtain rfl := Option.some.inj (hindex.symm.trans hindex')
    obtain rfl := Option.some.inj (ht.symm.trans ht')
    exact fits_of_binds hapart ((hlegal.bits p (mem_ports_iff.2 (.inr ⟨direction, hp⟩)) hp').perm hperm)

end Netlist

/-! ## Designs -/

namespace Design

variable {design : Design} {c : Circuit} {x : Component}

/-- **When the port map of an instance is legal.**  Every instance in an accepted design is of a
circuit of the design.  If it can be bound, and what is said of clocks, bubbles and widths agrees,
its port map is legal in either language; and it is legal only then, if the pins of the enclosing
circuit are apart from what it makes up, and the ports of the other one have different names. -/
theorem legal_of_agrees (hvalid : design.validate = .ok ()) (hc : c ∈ design.circuits)
    (hx : x ∈ c.netlist.instances) :
    ∃ id gated child, x.target? = some (id, gated) ∧ design.circuit? id = some child
      ∧ ∀ bindings, (c.netlist.instanceBindings x child.netlist).outcome = .ok bindings →
        ∀ d : Dialect,
          (c.netlist.Agrees x child.netlist →
            (PortMap.ofBindings d bindings).Legal d c.netlist child.netlist)
          ∧ (c.netlist.PinsApart → (child.netlist.ports.map Port.name).Nodup →
            ((PortMap.ofBindings d bindings).Legal d c.netlist child.netlist
              ↔ c.netlist.Agrees x child.netlist)) := by
  obtain ⟨⟨id, gated, child, hkind, hchild⟩, -⟩ :=
    ((validate_eq_ok_iff.1 hvalid).circuits c hc).instances x hx
  refine ⟨id, gated, child, by rw [Component.target?, hkind], hchild, fun bindings h d => ?_⟩
  exact ⟨fun hagrees => hagrees.legal h d, fun hapart hnodup =>
    ⟨Netlist.agrees_of_legal hapart hnodup h, fun hagrees => hagrees.legal h d⟩⟩

/-- A circuit with clocks, two bubbles and a pin of two bits, and an instance of it in another
one. -/
def nested (clocked : Bool) (bubbles : BubbleRange) (bits : List (Option Point)) : Design where
  circuits := #[
    { name := "leaf", netlist := {
        inputs := [{ label := "d", terminals := [.unconnected .output 2] }]
        clockTrees := 1, requiresGlobalClock := true, inputBubbles := 2 } },
    { name := "main", netlist := {
        nets := #[{ width := 4 }]
        instances := [{
          label := "u", kind := .instance 0 false, bubbles := { input := some bubbles }
          terminals := [⟨.input, some "d", bits⟩] }]
        clockTrees := if clocked then 1 else 0, requiresGlobalClock := clocked, inputBubbles := 4 } }]
  top := 1

/-- An instance that agrees with both circuits: two bubbles of four, and two bits for the pin. -/
theorem legal_of_agrees_nested :
    let design := nested true ⟨1, 2⟩ [some ⟨0, 1⟩, some ⟨0, 2⟩]
    let main := design.circuits[1]
    let leaf := design.circuits[0]
    design.validate = .ok () ∧ main ∈ design.circuits ∧ ∃ x ∈ main.netlist.instances, ∃ bindings,
      (main.netlist.instanceBindings x leaf.netlist).outcome = .ok bindings
      ∧ main.netlist.PinsApart ∧ (leaf.netlist.ports.map Port.name).Nodup
      ∧ main.netlist.Agrees x leaf.netlist
      ∧ (PortMap.ofBindings .vhdl bindings).texts .vhdl =
        [("d", "s_logisimBus0(2 DOWNTO 1)"), ("fpgaGlobalClock", "fpgaGlobalClock"),
          ("logisimClockTree0", "logisimClockTree0"),
          ("logisimInputBubbles", "logisimInputBubbles(2 DOWNTO 1)")]
      ∧ ∀ d : Dialect, (PortMap.ofBindings d bindings).Legal d main.netlist leaf.netlist := by
  intro design main leaf
  have hvalid : design.validate = .ok () := by decide
  have hmain : main ∈ design.circuits := Array.getElem_mem _
  have hapart : main.netlist.PinsApart := fun _ hname => nomatch hname
  have hnodup : (leaf.netlist.ports.map Port.name).Nodup := by decide
  refine ⟨hvalid, hmain, _, List.mem_singleton_self _, _, rfl, hapart, hnodup, ?_⟩
  have hagrees : main.netlist.Agrees main.netlist.instances[0] leaf.netlist := by
    refine ⟨by decide, fun _ => rfl, fun direction hpos => ?_, fun direction p hp _ index t hi ht => ?_⟩
    · cases direction with
      | input => exact .part (by decide) (by decide) (by decide) rfl
      | output | inout => cases hpos
    · cases direction with
      | input =>
          obtain rfl := List.mem_singleton.1 hp
          obtain rfl := Option.some.inj hi
          obtain rfl := Option.some.inj ht
          exact .inl rfl
      | output | inout => cases hp
  obtain ⟨id, gated, child, htarget, hchild, h⟩ :=
    legal_of_agrees hvalid hmain (List.mem_singleton_self _)
  cases htarget
  cases hchild
  exact ⟨hagrees, by decide, fun d => ((h _ rfl d).2 hapart hnodup).2 hagrees⟩

/-- Two pins whose labels give one identifier, and an instance with a terminal for each. -/
def homonyms : Design where
  circuits := #[
    { name := "leaf", netlist := {
        inputs := [
          { label := "a b", terminals := [.unconnected .output 1] },
          { label := "a-b", terminals := [.unconnected .output 2] }] } },
    { name := "main", netlist := {
        nets := #[{ width := 2 }]
        instances := [{
          label := "u", kind := .instance 0 false
          terminals := [
            ⟨.input, some "a b", [some ⟨0, 0⟩]⟩,
            ⟨.input, some "a-b", [some ⟨0, 0⟩, some ⟨0, 1⟩]⟩] }] } }]
  top := 1

/-- What is said need not agree.  An accepted design may pass clocks that the enclosing circuit does
not have, take bubbles past the end of its bus, and bind one bit to a pin of two; and of two pins of
one name, both have the terminal of the first. -/
theorem instance_not_legal :
    let design := nested false ⟨3, 4⟩ [some ⟨0, 1⟩]
    let main := design.circuits[1].netlist
    let leaf := design.circuits[0].netlist
    let bindings := [bindTo "logisimClockTree0" "logisimClockTree0",
      bindTo "fpgaGlobalClock" "fpgaGlobalClock",
      ("logisimInputBubbles", .whole (.ref (.range "logisimInputBubbles" 4 3))),
      ("d", .whole (.ref (.bit "s_logisimBus0" 1)))]
    let main' := homonyms.circuits[1].netlist
    let leaf' := homonyms.circuits[0].netlist
    let bindings' := [("a_b", .whole (.ref (.bit "s_logisimBus0" 0))),
      ("a_b", .whole (.ref (.bit "s_logisimBus0" 0)))]
    (design.validate = .ok ()
      ∧ (∃ x ∈ main.instances, (main.instanceBindings x leaf).outcome = .ok bindings)
      ∧ main.ports = [⟨.input, "logisimInputBubbles", 4⟩]
      ∧ (∀ n, ¬ (Ref.range "logisimInputBubbles" 4 3).Has (main.ports.map Port.signal) n)
      ∧ ⟨.input, "d", 2⟩ ∈ leaf.ports
      ∧ ¬ Binds main.visible ((PortMap.ofBindings .vhdl bindings).entries .vhdl "d") 2)
    ∧ homonyms.validate = .ok ()
      ∧ (∃ x ∈ main'.instances, (main'.instanceBindings x leaf').outcome = .ok bindings')
      ∧ leaf'.ports = [⟨.input, "a_b", 1⟩, ⟨.input, "a_b", 2⟩]
      ∧ ¬ Binds main'.visible ((PortMap.ofBindings .vhdl bindings').entries .vhdl "a_b") 2 := by
  intro design main leaf bindings main' leaf' bindings'
  -- an entry for one bit binds no two
  have hone : ∀ scope port bus index,
      ¬ Binds scope [⟨.whole port, .single (.ref (.bit bus index))⟩] 2 := by
    intro scope port bus index h
    cases Actual.has_ref_iff.1 (Connection.has_single_iff.1 (binds_single_iff.1 h))
  have hd : (PortMap.ofBindings .vhdl bindings).entries .vhdl "d"
      = [⟨.whole "d", .single (.ref (.bit "s_logisimBus0" 1))⟩] := by decide
  have hab : (PortMap.ofBindings .vhdl bindings').entries .vhdl "a_b"
      = [⟨.whole "a_b", .single (.ref (.bit "s_logisimBus0" 0))⟩] := by decide
  refine ⟨⟨by decide, ⟨_, List.mem_singleton_self _, rfl⟩, by decide, fun n h => ?_, by decide,
    hd ▸ hone _ _ _ _⟩, by decide, ⟨_, List.mem_singleton_self _, rfl⟩, by decide, hab ▸ hone _ _ _ _⟩
  have hscope : main.ports.map Port.signal = [⟨"logisimInputBubbles", 4⟩] := by decide
  rw [hscope] at h
  cases h with
  | range hmem _ _ hlast =>
      obtain ⟨-, rfl⟩ := Signal.mk.inj (List.mem_singleton.1 hmem)
      exact Nat.lt_irrefl _ hlast

end Design

end Netscribe
