import Netscribe.Proofs.Circuit.Shared

/-!
# Clock sources one by one

A clock source without a connection is left out and reported.  Any other is driven, from the port of
the board clock or of its tree, or ends the run: its lowest bit must be connected to something that
has a root, and its tree must be one of the circuit, even where the board clock is used in its place.
Which label the system clock has decides only how a source that is left out is reported.

* `ClockSource.isConnected`, `Netlist.Unclocked` — what decides about a clock source.
* `Netlist.DrivesClock` — the assignment of a clock source.
* `Netlist.clockAssignment_cases` — one clock source, and `Netlist.clockAssignments_split`, all of
  them.
* `Warning.SameClock`, `Diagnostic.SameClock` — reports that differ in the role of a clock source.
* `Context.sections_withClock` — what the label of the system clock changes.
* **`Context.clockSources_account`** — what becomes of all clock sources.
-/

namespace Netscribe

open Attempt

/-! ## One clock source -/

namespace ClockSource

/-- **A clock source with a connection**: it has a terminal 0, and some bit of that is connected. -/
def isConnected (source : ClockSource) : Bool :=
  source.component.isTerminalConnected 0

/-- What the lowest bit of a clock source is connected to. -/
def point? (source : ClockSource) : Option Point :=
  (source.component.terminal? 0).bind (·.point? 0)

end ClockSource

namespace Netlist

/-- **Why a connected clock source cannot be driven.** -/
inductive Unclocked (nl : Netlist) (source : ClockSource) : Prop
  /-- Its lowest bit is not connected, whatever its other bits are. -/
  | openBit : source.point? = none → Unclocked nl source
  | rootless {p} : source.point? = some p → nl.rootOf p = none → Unclocked nl source
  | noTree : source.tree = none → Unclocked nl source
  /-- Its tree does not reach the circuit. -/
  | otherTree {tree} : source.tree = some tree → nl.clockTrees ≤ tree → Unclocked nl source

/-- **The port that a clock source is driven from**: that of the board clock, where the circuit needs
it, and else that of the source's tree. -/
def clockPort (nl : Netlist) (tree : UInt32) : Port :=
  if nl.requiresGlobalClock then ⟨.input, Names.globalClock, 1⟩
  else ⟨.input, Names.clockTree tree.toNat, Names.clockTreeWidth⟩

/-- **The assignment of a clock source**: what carries its lowest bit gets bit 0 of a port of the
circuit. -/
structure DrivesClock (nl : Netlist) (source : ClockSource) (a : Assignment) : Prop where
  target : ∃ p, source.point? = some p ∧ nl.signalOf p = some a.target
  driver : ∃ tree, source.tree = some tree ∧ tree < nl.clockTrees
    ∧ a.source = .operand (.ref (nl.clockDriver tree))
    ∧ nl.clockPort tree ∈ nl.ports
    ∧ ∀ d, ReadsLine nl.signals [⟨(nl.clockPort tree).name, (nl.clockPort tree).width⟩] d (a.line d)
        [(a.target.wire, .wire ⟨(nl.clockPort tree).name, 0⟩)]

variable {nl : Netlist} {source : ClockSource} {tree : UInt32}

lemma clockPort_mem_ports (h : tree < nl.clockTrees) : nl.clockPort tree ∈ nl.ports := by
  rw [clockPort]
  split
  · next hglobal => exact mem_ports_iff.2 (.inl ⟨.globalClock, globalClock_mem_shared.2 hglobal, rfl⟩)
  · refine mem_ports_iff.2 (.inl ⟨.clockTree tree.toNat, ?_, rfl⟩)
    exact clockTree_mem_shared.2 (UInt32.lt_iff_toNat_lt.1 h)

lemma clockDriver_reads (nl : Netlist) (tree : UInt32) (d : Dialect) :
    Reads [⟨(nl.clockPort tree).name, (nl.clockPort tree).width⟩] d ((nl.clockDriver tree).text d)
      [⟨(nl.clockPort tree).name, 0⟩] := by
  rw [clockDriver, clockPort]
  split
  · exact Reads.whole List.mem_cons_self
  · have hbus : 1 < Names.clockTreeWidth := by decide
    exact reads_bit List.mem_cons_self hbus (Nat.lt_of_succ_lt hbus) d

/-- A source that has its signal and its tree is driven. -/
lemma drivesClock {p : Point} {signal : Ref} (hp : source.point? = some p)
    (hsignal : nl.signalOf p = some signal) (htree : source.tree = some tree)
    (hlt : tree < nl.clockTrees) : nl.DrivesClock source (.ofRef signal (nl.clockDriver tree)) := by
  refine ⟨⟨p, hp, hsignal⟩, tree, htree, hlt, rfl, clockPort_mem_ports hlt, fun d => ?_⟩
  exact ofRef_reads (signalOf_reads hsignal d) (clockDriver_reads nl tree d) rfl

/-- A source that is driven has its signal and its tree. -/
lemma DrivesClock.not_unclocked {a : Assignment} (h : nl.DrivesClock source a) :
    ¬ nl.Unclocked source := by
  obtain ⟨p, hp, hsignal⟩ := h.target
  obtain ⟨tree, htree, hlt, -⟩ := h.driver
  rintro (hnone | ⟨hp', hroot⟩ | hnone | ⟨htree', hle⟩)
  · cases hp.symm.trans hnone
  · obtain rfl := Option.some.inj (hp.symm.trans hp')
    cases hsignal.symm.trans (signalOf_eq_none_iff.2 hroot)
  · cases htree.symm.trans hnone
  · obtain rfl := Option.some.inj (htree.symm.trans htree')
    exact absurd hlt (UInt32.not_lt.2 hle)

/-- A connected source without a signal or a tree cannot be driven. -/
lemma unclocked_of_none {t : Terminal} (ht : source.component.terminal? 0 = some t)
    (h : nl.clockSignal? t = none ∨ nl.clockTree? source = none) : nl.Unclocked source := by
  have hpoint : source.point? = t.point? 0 := by rw [ClockSource.point?, ht, Option.bind_some]
  rcases h with h | h
  · rw [clockSignal?, ← hpoint] at h
    cases hp : source.point? with
    | none => exact .openBit hp
    | some p =>
        rw [hp] at h
        exact .rootless hp (signalOf_eq_none_iff.1 h)
  · rw [clockTree?] at h
    cases htree : source.tree with
    | none => exact .noTree htree
    | some tree =>
        refine .otherTree htree (UInt32.not_lt.1 fun hlt => ?_)
        rw [htree, Option.filter_some_pos (by simpa using hlt)] at h
        cases h

/-- **What becomes of a clock source**: it is left out and reported, or ends the run, or is driven. -/
lemma clockAssignment_cases (nl : Netlist) (systemClock : String) (source : ClockSource) :
    (source.isConnected = false
      ∧ nl.clockAssignment systemClock source
        = ⟨[.unconnectedClock source.component.label (source.component.label == systemClock)],
            .ok none⟩)
    ∨ (source.isConnected = true ∧ nl.Unclocked source
      ∧ nl.clockAssignment systemClock source
        = ⟨[], .error (.unresolvedClock source.component.label)⟩)
    ∨ ∃ a, source.isConnected = true ∧ nl.DrivesClock source a
      ∧ nl.clockAssignment systemClock source = ⟨[], .ok (some a)⟩ := by
  rw [clockAssignment, ClockSource.isConnected, Component.isTerminalConnected]
  cases ht : source.component.terminal? 0 with
  | none => exact .inl ⟨rfl, rfl⟩
  | some t =>
      cases hconnected : t.isConnected with
      | false =>
          rw [Option.filter_some_neg (by simp [hconnected])]
          exact .inl ⟨by simpa using hconnected, rfl⟩
      | true =>
          rw [Option.filter_some_pos hconnected, Option.any_some]
          dsimp only
          refine .inr ?_
          have hpoint : source.point? = t.point? 0 := by
            rw [ClockSource.point?, ht, Option.bind_some]
          cases hsignal : nl.clockSignal? t with
          | none => exact .inl ⟨hconnected, unclocked_of_none ht (.inl hsignal), rfl⟩
          | some signal =>
              cases htree : nl.clockTree? source with
              | none => exact .inl ⟨hconnected, unclocked_of_none ht (.inr htree), rfl⟩
              | some tree =>
                  obtain ⟨p, hp, hsignal⟩ := Option.bind_eq_some_iff.1 hsignal
                  obtain ⟨htree, hlt⟩ := Option.filter_eq_some_iff.1 htree
                  exact .inr ⟨_, hconnected,
                    drivesClock (hpoint.trans hp) hsignal htree (by simpa using hlt), rfl⟩

/-! ## All clock sources -/

/-- The warning of a clock source that is left out. -/
def clockWarning (systemClock : String) (source : ClockSource) : Warning :=
  .unconnectedClock source.component.label (source.component.label == systemClock)

variable {systemClock : String}

/-- Of sources that do not end the run, those without a connection have a warning each, and the others
an assignment each. -/
lemma clocks_of_forall₂ {sources : List ClockSource} {each : List (Option Assignment)}
    (h : List.Forall₂ (fun source a => (nl.clockAssignment systemClock source).outcome = .ok a)
      sources each) :
    sources.flatMap (fun source => (nl.clockAssignment systemClock source).warnings)
        = (sources.filter fun source => !source.isConnected).map (clockWarning systemClock)
      ∧ List.Forall₂ nl.DrivesClock (sources.filter ClockSource.isConnected) (each.filterMap id) := by
  induction h with
  | nil => exact ⟨rfl, .nil⟩
  | @cons source a sources each hsource _ ih =>
      obtain ⟨hwarnings, hdrives⟩ := ih
      rw [List.flatMap_cons, hwarnings]
      rcases nl.clockAssignment_cases systemClock source with
        ⟨hconnected, heq⟩ | ⟨-, -, heq⟩ | ⟨a', hconnected, ha', heq⟩
      · rw [heq] at hsource ⊢
        obtain rfl := Except.ok.inj hsource
        simpa [hconnected, clockWarning] using hdrives
      · rw [heq] at hsource
        cases hsource
      · rw [heq] at hsource ⊢
        obtain rfl := Except.ok.inj hsource
        simpa [hconnected] using ⟨ha', hdrives⟩

/-- **All clock sources, up to the first that ends the run.** -/
lemma clockAssignments_split (nl : Netlist) (systemClock : String) :
    ∃ handled rest, nl.clockSources = handled ++ rest
      ∧ (∀ source ∈ handled, source.isConnected = true → ¬ nl.Unclocked source
        ∧ ∃ a, nl.DrivesClock source a ∧ nl.clockAssignment systemClock source = ⟨[], .ok (some a)⟩)
      ∧ (nl.clockAssignments systemClock).warnings
        = (handled.filter fun source => !source.isConnected).map (clockWarning systemClock)
      ∧ match rest with
        | [] => ∃ assignments, (nl.clockAssignments systemClock).outcome = .ok assignments
            ∧ List.Forall₂ nl.DrivesClock (handled.filter ClockSource.isConnected) assignments
        | source :: _ => source.isConnected = true ∧ nl.Unclocked source
            ∧ (nl.clockAssignments systemClock).outcome
              = .error (.unresolvedClock source.component.label) := by
  obtain ⟨handled, rest, each, hsplit, heach, hrest⟩ :=
    exists_mapM_split (nl.clockAssignment systemClock) nl.clockSources
  obtain ⟨hwarnings, hdrives⟩ := clocks_of_forall₂ heach
  refine ⟨handled, rest, hsplit, fun source hsource hconnected => ?_, ?_⟩
  · obtain ⟨a, -, hok⟩ := exists_mem_of_forall₂ heach.flip hsource
    rcases nl.clockAssignment_cases systemClock source with
      ⟨hfalse, -⟩ | ⟨-, -, heq⟩ | ⟨a, -, ha, heq⟩
    · cases hfalse.symm.trans hconnected
    · cases (congrArg outcome heq).symm.trans hok
    · exact ⟨ha.not_unclocked, a, ha, heq⟩
  · rw [clockAssignments]
    cases rest with
    | nil =>
        rw [hrest, bind_of_ok rfl, hwarnings]
        exact ⟨List.append_nil _, _, rfl, hdrives⟩
    | cons source rest =>
        obtain ⟨fault, hfault, hmapM⟩ := hrest
        rw [hmapM, bind_of_error rfl, hwarnings]
        rcases nl.clockAssignment_cases systemClock source with
          ⟨-, heq⟩ | ⟨hconnected, hunclocked, heq⟩ | ⟨a, -, -, heq⟩
        · rw [heq] at hfault
          cases hfault
        · rw [heq] at hfault ⊢
          obtain rfl := Except.error.inj hfault
          exact ⟨List.append_nil _, hconnected, hunclocked, rfl⟩
        · rw [heq] at hfault
          cases hfault

end Netlist

/-! ## The label of the system clock -/

/-- **Two warnings that differ at most in the role of a clock source.** -/
inductive Warning.SameClock : Warning → Warning → Prop
  | same {w} : SameClock w w
  | role {label isSystemClock isSystemClock'} :
      SameClock (.unconnectedClock label isSystemClock) (.unconnectedClock label isSystemClock')

lemma Warning.code_unconnectedClock (label : String) (isSystemClock : Bool) :
    (unconnectedClock label isSystemClock).diagnostic.code.text
      = if isSystemClock then "I301" else "W302" := by
  cases isSystemClock with
  | false =>
      show (⟨.warning, 302⟩ : Diagnostic.Code).text = "W302"
      decide
  | true =>
      show (⟨.info, 301⟩ : Diagnostic.Code).text = "I301"
      decide

/-- The codes under which clock sources without a connection are reported. -/
def clockCodes : List String :=
  ["I301", "W302"]

/-- **Two reports that are the same**, or are both of a clock source without a connection and differ at
most in code, severity and help. -/
def Diagnostic.SameClock (x y : Diagnostic) : Prop :=
  x = y ∨ x.code.text ∈ clockCodes ∧ y.code.text ∈ clockCodes
    ∧ y = { x with severity := y.severity, code := y.code, help := y.help }

lemma Warning.SameClock.diagnostic {w w' : Warning} (h : w.SameClock w') (scope : String) :
    (w.diagnostic.atScope scope).SameClock (w'.diagnostic.atScope scope) := by
  cases h with
  | same => exact .inl rfl
  | @role label isSystemClock isSystemClock' =>
      have hcode : ∀ b, ((Warning.unconnectedClock label b).diagnostic.atScope scope).code.text
          ∈ clockCodes := by
        intro b
        show (Warning.unconnectedClock label b).diagnostic.code.text ∈ clockCodes
        rw [Warning.code_unconnectedClock]
        cases b <;> decide
      refine .inr ⟨hcode _, hcode _, ?_⟩
      cases isSystemClock <;> cases isSystemClock' <;> rfl

/-- Attempts that differ in the role of clock sources are reported alike. -/
lemma Attempt.Alike.reports {α : Type} {x y : Attempt α} (h : x.Alike Warning.SameClock y)
    (scope : String) :
    List.Forall₂ Diagnostic.SameClock (x.reports scope) (y.reports scope) := by
  have hfault : x.faultReport = y.faultReport := by rw [faultReport, faultReport, h.outcome]
  rw [Attempt.reports, Attempt.reports, hfault, List.map_append, List.map_append, List.map_map,
    List.map_map]
  refine List.rel_append ?_ (List.forall₂_same.2 fun _ _ => .inl rfl)
  exact List.forall₂_map_left_iff.2 (List.forall₂_map_right_iff.2
    (h.warnings.imp fun _ _ hw => hw.diagnostic scope))

/-- The role of clock sources does not matter to their assignments. -/
lemma Netlist.clockAssignments_alike (nl : Netlist) (systemClock systemClock' : String) :
    (nl.clockAssignments systemClock).Alike Warning.SameClock (nl.clockAssignments systemClock') := by
  refine (Alike.mapM (fun _ => .same) (fun source => ?_) _).bind fun _ => .refl (fun _ => .same) _
  rw [clockAssignment, clockAssignment]
  cases (source.component.terminal? 0).filter Terminal.isConnected with
  | none => exact ⟨rfl, .cons .role .nil⟩
  | some t => exact .refl (fun _ => .same) _

namespace Context

/-- The same context with another system clock. -/
def withClock (ctx : Context) (label : String) : Context :=
  { ctx with systemClock := label }

variable {ctx : Context} {nl : Netlist} {label : String}

lemma placeComponents_withClock (inlineId instanceId : ℕ) (cs : List Component) :
    (ctx.withClock label).placeComponents nl inlineId instanceId cs
      = ctx.placeComponents nl inlineId instanceId cs := by
  induction cs generalizing inlineId instanceId with
  | nil => rfl
  | cons c cs ih =>
      rw [placeComponents, placeComponents]
      simp only [ih]
      rfl

/-- **Another system clock changes no statement of a body, nor whether it can be made.** -/
lemma sections_withClock (ctx : Context) (nl : Netlist) (label : String) :
    ((ctx.withClock label).sections nl).Alike Warning.SameClock (ctx.sections nl) := by
  rw [sections, sections, placeComponents_withClock]
  exact (nl.clockAssignments_alike _ _).bind fun clocks => .refl (fun _ => .same) _

/-- **All clock sources are accounted for.**  They are gone through in order, up to the first that is
connected but lacks its net or its tree, which ends the run.  Of those before, each without a
connection has one report, with the code of the system clock or the other, and each with a connection
has one assignment, from a port of the circuit.  Which label the system clock has changes neither what
a body says nor whether it can be made, but only how sources without a connection are reported. -/
theorem clockSources_account (ctx : Context) (nl : Netlist) :
    (∃ handled rest, nl.clockSources = handled ++ rest
      ∧ (∀ source ∈ handled, source.isConnected = true → ¬ nl.Unclocked source
        ∧ ∃ a, nl.DrivesClock source a
          ∧ nl.clockAssignment ctx.systemClock source = ⟨[], .ok (some a)⟩)
      ∧ List.Forall₂ (fun source (x : Diagnostic) =>
          x.code.text = (if source.component.label = ctx.systemClock then "I301" else "W302")
            ∧ x.message = "clock component found with no connection, skipping `"
              ++ source.component.label ++ "`")
          (handled.filter fun source => !source.isConnected)
          ((nl.clockAssignments ctx.systemClock).warnings.map Warning.diagnostic)
      ∧ match rest with
        | [] => ∃ assignments, (nl.clockAssignments ctx.systemClock).outcome = .ok assignments
            ∧ List.Forall₂ nl.DrivesClock (handled.filter ClockSource.isConnected) assignments
        | source :: _ => source.isConnected = true ∧ nl.Unclocked source
            ∧ (nl.clockAssignments ctx.systemClock).outcome
              = .error (.unresolvedClock source.component.label))
    ∧ ∀ label, ((ctx.withClock label).sections nl).outcome = (ctx.sections nl).outcome
        ∧ ∀ scope, List.Forall₂ Diagnostic.SameClock (((ctx.withClock label).sections nl).reports scope)
            ((ctx.sections nl).reports scope) := by
  obtain ⟨handled, rest, hsplit, hhandled, hwarnings, hrest⟩ :=
    nl.clockAssignments_split ctx.systemClock
  refine ⟨⟨handled, rest, hsplit, hhandled, ?_, hrest⟩, fun label => ?_⟩
  · rw [hwarnings, List.map_map, List.forall₂_map_right_iff]
    refine List.forall₂_same.2 fun source _ => ?_
    rw [Function.comp_apply, Netlist.clockWarning, Warning.code_unconnectedClock]
    simp only [beq_iff_eq, true_and]
    cases source.component.label == ctx.systemClock <;> rfl
  · have halike := ctx.sections_withClock nl label
    exact ⟨halike.outcome, halike.reports⟩

/-- The last of these has a bit that is connected, and is not left out, but its lowest bit is not. -/
example :
    let nl : Netlist := {
      nets := #[{ width := 1 }]
      clockSources := [
        { component := { label := "sysclk" } },
        { component := { label := "slow", terminals := [.unconnected .output 2] } },
        { component := { label := "fast", terminals := [⟨.output, none, [some ⟨0, 0⟩]⟩] }
          tree := some 0 },
        { component := { label := "late", terminals := [⟨.output, none, [none, some ⟨0, 0⟩]⟩] }
          tree := some 0 }]
      clockTrees := 1 }
    nl.clockAssignments "sysclk"
      = ⟨[.unconnectedClock "sysclk" true, .unconnectedClock "slow" false],
          .error (.unresolvedClock "late")⟩ := by
  rfl

end Context

end Netscribe
