import Netscribe.Proofs.Circuit.References
import Netscribe.Proofs.Hdl.Statement

/-!
# Connections of forced roots

A net that is forced to be a root has a signal of its own, which must be joined to what it was a view
of.  Each of its bits is driven by the roots of its sources and drives the roots of its sinks.  The
same two bits may be joined more than once: by repeated points, by points on different views of one
bus, and by two forced roots that name each other.  A statement that is there already is not written
again, and this is decided by its text.

* `Link`, `Netlist.links` — the connections of all forced roots, with repetitions.
* `Netlist.allWiring_eq` — each of them has one assignment.
* `Netlist.linkLine_inj` — connections are told apart by their lines.
* **`Netlist.wiring_links`** — each connection is written once.
-/

namespace Netscribe

/-- **A bit of a net**, by their positions. -/
structure NetBit where
  net : ℕ
  bit : ℕ
  deriving DecidableEq

def Point.netBit (p : Point) : NetBit :=
  ⟨p.net.toNat, p.bit.toNat⟩

/-- **A connection of two bits**: the target gets the source. -/
structure Link where
  target : NetBit
  source : NetBit
  deriving DecidableEq

namespace Netlist

/-! ## Connections -/

/-- The connections of one bit of a net: it gets its sources, and its sinks get it. -/
def bitLinks (nl : Netlist) (net : Net) (this : NetBit) : List Link :=
  ((net.sourcesAt this.bit).filterMap nl.rootOf).map (fun root => ⟨this, root.netBit⟩)
    ++ ((net.sinksAt this.bit).filterMap nl.rootOf).map fun root => ⟨root.netBit, this⟩

/-- **The connections of all forced roots**, by net, by bit, and sources before sinks. -/
def links (nl : Netlist) : List Link :=
  (nl.numberedNets.filter fun (net, _) => net.forcedRoot).flatMap fun (net, id) =>
    (List.range net.width.toNat).flatMap fun bit => nl.bitLinks net ⟨id, bit⟩

/-- What refers to a bit: an element of a bus, or the wire itself. -/
def refOf (nl : Netlist) (b : NetBit) : Ref :=
  if (nl.nets[b.net]?).any Net.isBus then .bit (Names.bus b.net) b.bit else .whole (Names.net b.net)

def linkAssignment (nl : Netlist) (l : Link) : Assignment :=
  .ofRef (nl.refOf l.target) (nl.refOf l.source)

/-- **The statement of a connection** in a language: target gets source. -/
def linkLine (nl : Netlist) (d : Dialect) (l : Link) : String :=
  (nl.linkAssignment l).line d

variable {nl : Netlist} {net : Net} {id bit : ℕ} {d : Dialect}

lemma refOf_eq_bitOfNet (h : nl.nets[id]? = some net) :
    nl.refOf ⟨id, bit⟩ = bitOfNet net id bit := by
  rw [refOf, bitOfNet, h, Option.any_some]

/-- What carries a point refers to the bit that is its root. -/
lemma signalOf_eq_map_rootOf (p : Point) :
    nl.signalOf p = (nl.rootOf p).map fun root => nl.refOf root.netBit := by
  cases hroot : nl.rootOf p with
  | none => simp [signalOf, hroot]
  | some root =>
      obtain ⟨net, hnet, -⟩ := rootOf_isStorage hroot
      rw [Option.map_some, Point.netBit, refOf_eq_bitOfNet hnet]
      simp [signalOf, hroot, hnet]

lemma bitWiring_eq (h : nl.nets[id]? = some net) :
    nl.bitWiring net id bit = (nl.bitLinks net ⟨id, bit⟩).map nl.linkAssignment := by
  simp only [bitWiring, bitLinks, signalOf_eq_map_rootOf, ← refOf_eq_bitOfNet h, List.map_append,
    List.map_filterMap, Option.map_map]
  rfl

/-- **Each connection has one assignment.** -/
theorem allWiring_eq (nl : Netlist) : nl.allWiring = nl.links.map nl.linkAssignment := by
  rw [allWiring, links, List.map_flatMap]
  refine List.flatMap_congr fun ⟨net, id⟩ hmem => ?_
  have hnet := mem_numberedNets_iff.1 (List.mem_filter.1 hmem).1
  rw [List.map_flatMap]
  exact List.flatMap_congr fun bit _ => bitWiring_eq hnet

/-! ## The bits that are connected -/

/-- A bit of a net that is a wire or has storage of its own. -/
def Stores (nl : Netlist) (b : NetBit) : Prop :=
  ∃ net, nl.nets[b.net]? = some net ∧ b.bit < net.width.toNat ∧ (net.isBus = true → net.isRoot = true)

lemma stores_of_rootOf {p root : Point} (h : nl.rootOf p = some root) : nl.Stores root.netBit := by
  obtain ⟨net, hnet, hbit, hfollow⟩ := rootOf_isStorage h
  exact ⟨net, hnet, UInt32.lt_iff_toNat_lt.1 hbit, Net.isRoot_of_follow?_eq_none hfollow⟩

lemma mem_bitLinks {this : NetBit} {l : Link} (h : l ∈ nl.bitLinks net this) :
    ∃ p root, nl.rootOf p = some root
      ∧ (l = ⟨this, root.netBit⟩ ∨ l = ⟨root.netBit, this⟩) := by
  rcases List.mem_append.1 h with h | h
  · obtain ⟨root, hroot, rfl⟩ := List.mem_map.1 h
    obtain ⟨p, -, hp⟩ := List.mem_filterMap.1 hroot
    exact ⟨p, root, hp, .inl rfl⟩
  · obtain ⟨root, hroot, rfl⟩ := List.mem_map.1 h
    obtain ⟨p, -, hp⟩ := List.mem_filterMap.1 hroot
    exact ⟨p, root, hp, .inr rfl⟩

/-- Both sides of a connection are bits with storage. -/
lemma stores_of_mem_links {l : Link} (h : l ∈ nl.links) :
    nl.Stores l.target ∧ nl.Stores l.source := by
  obtain ⟨⟨net, id⟩, hmem, h⟩ := List.mem_flatMap.1 h
  obtain ⟨hnet, hforced⟩ := List.mem_filter.1 hmem
  obtain ⟨bit, hbit, h⟩ := List.mem_flatMap.1 h
  have hthis : nl.Stores ⟨id, bit⟩ := by
    refine ⟨net, mem_numberedNets_iff.1 hnet, List.mem_range.1 hbit, fun _ => ?_⟩
    rw [Net.isRoot, show net.forcedRoot = true from hforced, Bool.or_true]
  obtain ⟨p, root, hroot, rfl | rfl⟩ := mem_bitLinks h
  · exact ⟨hthis, stores_of_rootOf hroot⟩
  · exact ⟨stores_of_rootOf hroot, hthis⟩

lemma isSingle_refOf (b : NetBit) : (nl.refOf b).IsSingle := by
  rw [refOf]
  split <;> trivial

lemma isWord_refOf (b : NetBit) : IsWord (nl.refOf b).name := by
  rw [refOf]
  split
  · exact Names.isWord_bus b.net
  · exact Names.isWord_net b.net

lemma refOf_inj {b b' : NetBit} (hb : nl.Stores b) (hb' : nl.Stores b')
    (h : nl.refOf b = nl.refOf b') : b = b' := by
  obtain ⟨net, hnet, hbit, -⟩ := hb
  obtain ⟨net', hnet', hbit', -⟩ := hb'
  obtain ⟨hid, hindex⟩ :=
    bitOfNet_inj hbit hbit' ((refOf_eq_bitOfNet hnet).symm.trans (h.trans (refOf_eq_bitOfNet hnet')))
  cases b
  cases b'
  simp_all

/-- What refers to a bit with storage reads as that one bit of a declared signal. -/
lemma refOf_reads {b : NetBit} (h : nl.Stores b) (d : Dialect) :
    Reads nl.signals d ((nl.refOf b).text d) [(nl.refOf b).wire] := by
  obtain ⟨net, hnet, hbit, hroot⟩ := h
  have hdeclared := declared_bitOfNet (mem_numberedNets_iff.2 hnet) hroot hbit
  rw [← refOf_eq_bitOfNet hnet] at hdeclared
  cases hr : nl.refOf b with
  | whole name =>
      rw [hr] at hdeclared
      cases hdeclared with
      | wire hmem => exact Reads.whole hmem
  | bit name index =>
      rw [hr] at hdeclared
      cases hdeclared with
      | bit hmem hwidth hindex => exact reads_bit hmem hwidth hindex d
  | range name hi lo => cases hr ▸ nl.isSingle_refOf b

/-! ## Lines -/

/-- **Connections are told apart by their lines.** -/
theorem linkLine_inj {l l' : Link} (hl : l ∈ nl.links) (hl' : l' ∈ nl.links)
    (h : nl.linkLine d l = nl.linkLine d l') : l = l' := by
  obtain ⟨ht, hs⟩ := stores_of_mem_links hl
  obtain ⟨ht', hs'⟩ := stores_of_mem_links hl'
  obtain ⟨htarget, hsource⟩ := Assignment.line_ofRef_inj (isSingle_refOf _) (isSingle_refOf _)
    (isWord_refOf _) (isWord_refOf _) (isWord_refOf _) (isWord_refOf _) h
  have htarget := refOf_inj ht ht' htarget
  have hsource := refOf_inj hs hs' hsource
  cases l
  cases l'
  simp_all

/-- The line of a connection reads as its target driven by its source. -/
lemma linkLine_reads {l : Link} (hl : l ∈ nl.links) (d : Dialect) :
    ReadsLine nl.signals nl.signals d (nl.linkLine d l)
      [((nl.refOf l.target).wire, .wire (nl.refOf l.source).wire)] := by
  obtain ⟨ht, hs⟩ := stores_of_mem_links hl
  exact ofRef_reads (refOf_reads ht d) (refOf_reads hs d) rfl

lemma readsEach_links {ls : List Link} (h : ls ⊆ nl.links) :
    ReadsEach (ReadsLine nl.signals nl.signals d) (ls.map (nl.linkLine d))
      (ls.map fun l => ((nl.refOf l.target).wire, .wire (nl.refOf l.source).wire)) := by
  induction ls with
  | nil => exact .nil
  | cons l ls ih =>
      obtain ⟨hl, hls⟩ := List.cons_subset.1 h
      exact .cons (linkLine_reads hl d) (ih hls)

/-- The assignments that are written are those of different connections. -/
lemma lines_wiring (nl : Netlist) (d : Dialect) :
    nl.wiring.map (Assignment.line d) = nl.links.eraseDups.map (nl.linkLine d) := by
  have hinj : ∀ l ∈ nl.links, ∀ l' ∈ nl.links,
      nl.linkAssignment l = nl.linkAssignment l' → l = l' :=
    fun l hl l' hl' h => linkLine_inj hl hl' (congrArg (Assignment.line d) h)
  rw [wiring, distinct_eq_eraseDups, allWiring_eq, eraseDups_map hinj, List.map_map]
  rfl

/-- **Each connection of a forced root is written once.**  One statement is written for each different
connection, in the order in which they first occur; it says that the target gets the source, and both
are bits of declared signals.  To leave out a line that is there already comes to the same as to leave
out a connection that is: different connections have different lines. -/
theorem wiring_links (nl : Netlist) (d : Dialect) :
    nl.wiring.map (Assignment.line d) = nl.links.eraseDups.map (nl.linkLine d)
    ∧ ReadsEach (ReadsLine nl.signals nl.signals d) (nl.wiring.map (Assignment.line d))
        (nl.links.eraseDups.map fun l =>
          ((nl.refOf l.target).wire, .wire (nl.refOf l.source).wire))
    ∧ (nl.links.map (nl.linkLine d)).foldl Lines.pushUnique [] = nl.wiring.map (Assignment.line d)
    ∧ (nl.wiring.map (Assignment.line d)).Nodup
    ∧ ∀ l ∈ nl.links, ∀ l' ∈ nl.links, nl.linkLine d l = nl.linkLine d l' → l = l' := by
  have hinj : ∀ l ∈ nl.links, ∀ l' ∈ nl.links, nl.linkLine d l = nl.linkLine d l' → l = l' :=
    fun l hl l' hl' => linkLine_inj hl hl'
  have hpush : (nl.links.map (nl.linkLine d)).foldl Lines.pushUnique []
      = nl.wiring.map (Assignment.line d) := by
    rw [Lines.foldl_pushUnique, eraseDups_map hinj, lines_wiring]
  refine ⟨lines_wiring nl d, ?_, hpush, ?_, hinj⟩
  · rw [lines_wiring]
    exact readsEach_links fun l hl => List.mem_eraseDups.1 hl
  · rw [← hpush, Lines.foldl_pushUnique]
    exact nodup_eraseDups _

/-- Two forced roots: a bit of the first one is driven by one bit of a bus twice, once through a view,
and each of them names the connection between them.  Of five connections, three are different. -/
theorem wiring_links_repeated :
    let nl : Netlist :=
      { nets := #[{ width := 8 }, { width := 4, parent := some ⟨0, 2⟩ }, { width := 1 },
          { width := 2, parent := some ⟨0, 0⟩, forcedRoot := true,
            sources := [[⟨0, 5⟩, ⟨1, 3⟩]], sinks := [[⟨2, 0⟩], [⟨4, 0⟩]] },
          { width := 1, forcedRoot := true, sources := [[⟨3, 1⟩]] }] }
    nl.links = [⟨⟨3, 0⟩, ⟨0, 5⟩⟩, ⟨⟨3, 0⟩, ⟨0, 5⟩⟩, ⟨⟨2, 0⟩, ⟨3, 0⟩⟩, ⟨⟨4, 0⟩, ⟨3, 1⟩⟩,
      ⟨⟨4, 0⟩, ⟨3, 1⟩⟩]
    ∧ nl.links.eraseDups = [⟨⟨3, 0⟩, ⟨0, 5⟩⟩, ⟨⟨2, 0⟩, ⟨3, 0⟩⟩, ⟨⟨4, 0⟩, ⟨3, 1⟩⟩]
    ∧ nl.wiring.map (Assignment.line .vhdl) = nl.links.eraseDups.map (nl.linkLine .vhdl)
    ∧ (nl.links.map (nl.linkLine .vhdl)).foldl Lines.pushUnique []
      = nl.wiring.map (Assignment.line .vhdl)
    ∧ ∀ l ∈ nl.links, nl.linkLine .vhdl l = nl.linkLine .vhdl ⟨⟨3, 0⟩, ⟨0, 5⟩⟩ →
        l = ⟨⟨3, 0⟩, ⟨0, 5⟩⟩ := by
  intro nl
  obtain ⟨hlines, -, hpush, -, hinj⟩ := wiring_links nl .vhdl
  exact ⟨by decide, by decide, hlines, hpush, fun l hl h => hinj l hl _ (by decide) h⟩

end Netlist

end Netscribe
