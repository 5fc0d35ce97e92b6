import Netscribe.Proofs.Generation.Coverage
import Netscribe.Proofs.Generation.Offers
import Netscribe.Proofs.Primitive.Names

/-!
# When a run writes all that is instantiated

A run is complete if each definition that a written circuit instantiates was offered before it, as
what its own origin makes.  Definitions are handled by name, so this is not so where two of them
share one: the first one met takes the name, even if it is a gate, which is not written at all.
Nothing else goes wrong.

* `Context.Complete` — a run that misses nothing.
* **`Context.run_complete_iff`** — a run misses nothing exactly if no definition comes second under
  its name.
* **`Context.run_offers_listing`** — where names tell definitions apart, a run offers the naive
  listing without repetitions.
-/

namespace Netscribe

/-! ## Faithful walks -/

namespace Plan

variable {ctx : Context} {listed : List Origin} {final : Plan}

/-- A walk is faithful where no definition comes second under its name. -/
lemma faithful_of_ownFirst (h : ctx.OwnFirst listed) : Faithful ctx listed final := by
  intro q zs hpart hq _ o ho hwritten hname
  obtain ⟨x, hx, hsame⟩ := List.mem_map.1 ((hq.handled _).1 hname)
  obtain ⟨rest, rfl⟩ := hpart
  have hfind := h o ho hwritten
  rw [List.find?_append] at hfind
  -- the name is there, so the first with this name is, and that is the definition itself
  cases hzs : zs.find? (fun x => ctx.nameOf x == ctx.nameOf o) with
  | none => exact absurd (List.find?_eq_none.1 hzs x hx) (by simp [hsame])
  | some y =>
      rw [hzs, Option.some_or] at hfind
      obtain rfl := Option.some.inj hfind
      exact hq.mem_origins.2 ⟨List.mem_of_find?_eq_some hzs, hwritten⟩

/-- A walk is faithful if in the end every definition is planned. -/
lemma faithful_of_planned (h : ∀ o ∈ listed, o.isWritten = true → o ∈ final.origins) :
    Faithful ctx listed final := by
  intro q zs _ _ hsteps o ho hwritten hname
  obtain ⟨new, htasks, hnew⟩ := hsteps.extends_of.tasks
  have hmem := h o ho hwritten
  rw [origins, htasks, List.map_append] at hmem
  rcases List.mem_append.1 hmem with hmem | hmem
  · exact hmem
  · obtain ⟨t, ht, rfl⟩ := List.mem_map.1 hmem
    exact absurd hname (hnew t ht)

end Plan

namespace Context

variable {ctx : Context} {top : Circuit} {listed : List Origin}

lemma exists_listing_of_validate (h : ctx.design.validate = .ok ()) :
    ∃ listed, ctx.topListing = some listed :=
  exists_listing (Design.bounded_of_validate h).2 false

/-- **A faithful walk covers the listing of the top circuit.** -/
lemma plan_covers (htop : ctx.design.topCircuit? = some top) (hfault : (ctx.plan top).fault = none)
    (hlisted : ctx.topListing = some listed)
    (hfaithful : Plan.Faithful ctx listed (ctx.plan top)) : Plan.Covers ctx listed (ctx.plan top) :=
  Plan.visit_covers hfault hfaithful _ _ _ _ _ _ [] _ htop hlisted .empty (List.prefix_refl listed)
    .refl

lemma getLast?_origins (hlisted : ctx.topListing = some listed)
    (h : Plan.Covers ctx listed (ctx.plan top)) :
    (ctx.plan top).origins.getLast? = some (.circuit ctx.design.top false) := by
  obtain ⟨init, rfl, hinit⟩ := listing_eq_append hlisted
  have hnew : .circuit ctx.design.top false ∉ init.filter Origin.isWritten := fun hmem =>
    hinit (List.mem_filter.1 hmem).1
  rw [h.written, List.filter_append, List.filter_cons_of_pos rfl, List.filter_nil, eraseDups_concat,
    if_neg hnew, List.getLast?_concat]

/-! ## Complete runs -/

variable {σ : Type} {offer : GeneratedModule → StateM σ (Except SinkError Unit)} {d : Dialect}
  {scope : String} {s : σ} {summary : Summary}

/-- **A run that misses nothing**, given the origins of its definitions and the modules it has
offered: whatever a circuit instantiates was offered before it, and the top circuit came last, each
as what its own origin makes. -/
structure Complete (ctx : Context) (d : Dialect) (origins : List Origin)
    (offered : List GeneratedModule) : Prop where
  /-- What a circuit instantiates was offered before it. -/
  uses : ∀ (i : ℕ) (id : UInt32) (gated : Bool), origins[i]? = some (.circuit id gated) →
    ∀ u ∈ ctx.uses id, ∃ j < i, origins[j]? = some u
      ∧ ∃ m, offered[j]? = some m ∧ ctx.Makes d u m
  /-- The top circuit was offered last. -/
  top : origins.getLast? = some (.circuit ctx.design.top false)
    ∧ ∃ m, offered.getLast? = some m ∧ ctx.Makes d (.circuit ctx.design.top false) m

lemma complete_of_covers {offered : List GeneratedModule}
    (hlisted : ctx.topListing = some listed)
    (h : Plan.Covers ctx listed (ctx.plan top))
    (hoffered : List.Forall₂ (ctx.Makes d) (ctx.plan top).origins offered) :
    ctx.Complete d (ctx.plan top).origins offered where
  uses := by
    intro i id gated hi u hu
    obtain ⟨j, hj, hju⟩ := h.ordered i id gated hi u hu
    exact ⟨j, hj, hju, exists_getElem?_of_forall₂ hoffered hju⟩
  top := ⟨getLast?_origins hlisted h,
    exists_getLast?_of_forall₂ hoffered (getLast?_origins hlisted h)⟩

/-- A run that misses nothing has planned all that is written of the listing. -/
lemma mem_origins_of_complete {origins : List Origin} {offered : List GeneratedModule}
    (h : ctx.Complete d origins offered)
    (hlisted : ctx.topListing = some listed) :
    ∀ o ∈ listed, o.isWritten = true → o ∈ origins := by
  refine listing_subset_of_uses (fun id gated hid u hu => ?_) hlisted
    (List.mem_of_getLast? h.top.1)
  obtain ⟨i, hi⟩ := List.getElem?_of_mem hid
  obtain ⟨j, -, hj, -⟩ := h.uses i id gated hi u hu
  exact List.mem_of_getElem? hj

/-- **A run that succeeds misses nothing exactly if no definition comes second under its name**: in
the naive listing of the top circuit, in which gates have their names too, the first entry with the
name of a written definition is that definition. -/
theorem run_complete_iff (hvalid : ctx.design.validate = .ok ())
    (h : (ctx.run scope d offer s).1.outcome = .ok summary) :
    ∃ top listed, ctx.design.topCircuit? = some top
      ∧ ctx.topListing = some listed
      ∧ List.Forall₂ (ctx.Makes d) (ctx.plan top).origins (ctx.offered scope d offer s)
      ∧ (ctx.Complete d (ctx.plan top).origins (ctx.offered scope d offer s)
        ↔ ctx.OwnFirst listed) := by
  obtain ⟨top, htop, hfault, hoffered⟩ := run_offers h
  obtain ⟨listed, hlisted⟩ := exists_listing_of_validate hvalid
  refine ⟨top, listed, htop, hlisted, hoffered, fun hcomplete => ?_, fun hown => ?_⟩
  · have hfaithful : Plan.Faithful ctx listed (ctx.plan top) :=
      Plan.faithful_of_planned (mem_origins_of_complete hcomplete hlisted)
    exact (plan_covers htop hfault hlisted hfaithful).ownFirst
  · exact complete_of_covers hlisted
      (plan_covers htop hfault hlisted (Plan.faithful_of_ownFirst hown)) hoffered

/-- A design in which a circuit has the name of a gate that its parent uses. -/
def gateNamed : Context where
  design := {
    circuits := #[
      { name := "AND_GATE" },
      { name := "main", netlist := {
          components := [{
            kind := .primitive "AND" .empty
            terminals := [.unconnected .output 1, .unconnected .input 1, .unconnected .input 1] }]
          instances := [{ kind := .instance 0 false }] } }]
    top := 1 }

/-- The gate takes the name, and the run succeeds without the circuit. -/
theorem run_complete_iff_gateNamed :
    gateNamed.design.validate = .ok ()
    ∧ (∃ summary, (gateNamed.run "" .verilog takeAll ()).1.outcome = .ok summary)
    ∧ ∃ top, gateNamed.design.topCircuit? = some top
      ∧ (gateNamed.plan top).origins = [.circuit 1 false]
      ∧ ¬ gateNamed.Complete .verilog (gateNamed.plan top).origins
          (gateNamed.offered "" .verilog takeAll ()) := by
  have hvalid : gateNamed.design.validate = .ok () := by decide
  obtain ⟨summary, hrun⟩ :
      ∃ summary, (gateNamed.run "" .verilog takeAll ()).1.outcome = .ok summary := ⟨_, rfl⟩
  obtain ⟨top, listed, htop, hlisted, -, hiff⟩ := run_complete_iff hvalid hrun
  obtain rfl : gateNamed.design.circuits[1] = top := Option.some.inj htop
  obtain rfl : [.primitive (.gate .and), .circuit 0 false, .circuit 1 false] = listed :=
    Option.some.inj hlisted
  refine ⟨hvalid, ⟨summary, hrun⟩, _, htop, rfl, fun hcomplete => ?_⟩
  -- the gate is the first with the circuit's name
  have hfirst := hiff.1 hcomplete (.circuit 0 false) (by simp) rfl
  revert hfirst
  decide

/-! ## Names that tell definitions apart -/

end Context

/-- **Two origins are one definition**: a circuit is told by its position and variant, and a
primitive by its name. -/
def Origin.Same : Origin → Origin → Prop
  | .circuit id gated, .circuit id' gated' => id = id' ∧ gated = gated'
  | .primitive p, .primitive p' => p.name = p'.name
  | _, _ => False

lemma Origin.Same.refl (o : Origin) : o.Same o := by
  cases o with
  | circuit id gated => exact ⟨rfl, rfl⟩
  | primitive p => rfl

lemma Origin.Same.eq {o o' : Origin} (h : o.Same o') : o = o' := by
  cases o with
  | circuit id gated =>
      cases o' with
      | circuit id' gated' =>
          obtain ⟨rfl, rfl⟩ := h
          rfl
      | primitive p => exact h.elim
  | primitive p =>
      cases o' with
      | circuit id gated => exact h.elim
      | primitive p' => rw [Primitive.name_injective h]

namespace Context

variable {ctx : Context} {listed : List Origin} {σ : Type}
  {offer : GeneratedModule → StateM σ (Except SinkError Unit)} {d : Dialect} {scope : String}
  {s : σ} {summary : Summary}

lemma map_name_of_makes {origins : List Origin} {offered : List GeneratedModule}
    (h : List.Forall₂ (ctx.Makes d) origins offered) :
    offered.map GeneratedModule.name = origins.map ctx.nameOf := by
  induction h with
  | nil => rfl
  | cons hmakes _ ih =>
      obtain ⟨attempt, definition, -, -, hname, -, -⟩ := hmakes
      rw [List.map_cons, List.map_cons, hname, ih]

/-- **Where names tell definitions apart, the walk that remembers does what the naive one would.**
A run that succeeds offers the names of the naive listing, each where it comes first: none is
missing and none comes twice, whatever a definition instantiates comes before it, and the top comes
last. -/
theorem run_offers_listing (hvalid : ctx.design.validate = .ok ())
    (hnames : ∀ o o', ctx.Reaches ctx.design.top o → ctx.Reaches ctx.design.top o' →
      ctx.nameOf o = ctx.nameOf o' → o.Same o')
    (h : (ctx.run scope d offer s).1.outcome = .ok summary) :
    ∃ top listed, ctx.design.topCircuit? = some top
      ∧ ctx.topListing = some listed
      ∧ (ctx.offered scope d offer s).map GeneratedModule.name
        = ((listed.filter Origin.isWritten).map ctx.nameOf).eraseDups
      ∧ ((ctx.offered scope d offer s).map GeneratedModule.name).Nodup
      ∧ ctx.Complete d (ctx.plan top).origins (ctx.offered scope d offer s) := by
  obtain ⟨top, htop, hfault, hoffered⟩ := run_offers h
  obtain ⟨listed, hlisted⟩ := exists_listing_of_validate hvalid
  have hreaches := reaches_of_mem .top hlisted
  have hinj : ∀ o ∈ listed, ∀ o' ∈ listed, ctx.nameOf o = ctx.nameOf o' → o = o' :=
    fun o ho o' ho' hname => (hnames o o' (hreaches o ho) (hreaches o' ho') hname).eq
  have hcovers := plan_covers htop hfault hlisted
    (Plan.faithful_of_ownFirst (ownFirst_of_injOn hinj))
  refine ⟨top, listed, htop, hlisted, ?_, ?_, complete_of_covers hlisted hcovers hoffered⟩
  · rw [map_name_of_makes hoffered, hcovers.written, eraseDups_map]
    intro o ho o' ho' hname
    exact hinj o (List.mem_filter.1 ho).1 o' (List.mem_filter.1 ho').1 hname
  · rw [map_name_of_makes hoffered, Plan.origins, List.map_map]
    exact (plan_tidy htop).nodup

/-- A design in which a circuit and a multiplexer are used at several places. -/
def shared : Context where
  design := {
    circuits := #[
      { name := "leaf", netlist := { components := [multiplexer] } },
      { name := "main", netlist := {
          components := [multiplexer]
          instances := [{ kind := .instance 0 false }, { kind := .instance 0 true },
            { kind := .instance 0 false }] } }]
    top := 1 }
where
  multiplexer : Component := {
    kind := .primitive "Multiplexer" .empty
    terminals := .unconnected .output 1 :: List.replicate 3 (.unconnected .input 1) }

/-- Each definition is written once. -/
theorem run_offers_listing_shared :
    shared.design.validate = .ok ()
    ∧ (∀ o o', shared.Reaches 1 o → shared.Reaches 1 o' → shared.nameOf o = shared.nameOf o' →
      o.Same o')
    ∧ (∃ summary, (shared.run "" .vhdl takeAll ()).1.outcome = .ok summary)
    ∧ (shared.offered "" .vhdl takeAll ()).map GeneratedModule.name
      = ["Multiplexer_1", "leaf", "leaf_gated", "main"] := by
  have hvalid : shared.design.validate = .ok () := by decide
  obtain ⟨listed, hlisted⟩ : ∃ listed, shared.listing 2 1 false = some listed := ⟨_, rfl⟩
  have hnames : ∀ o o', shared.Reaches 1 o → shared.Reaches 1 o' →
      shared.nameOf o = shared.nameOf o' → o.Same o' := by
    intro o o' ho ho' hname
    have hdistinct : ∀ l, shared.listing 2 1 false = some l → ∀ o ∈ l, ∀ o' ∈ l,
        shared.nameOf o = shared.nameOf o' → o = o' := by
      rintro l ⟨⟩
      decide
    rw [hdistinct listed hlisted o (mem_of_reaches hlisted ho) o' (mem_of_reaches hlisted ho')
      hname]
    exact .refl o'
  obtain ⟨summary, hrun⟩ : ∃ summary, (shared.run "" .vhdl takeAll ()).1.outcome = .ok summary :=
    ⟨_, rfl⟩
  obtain ⟨top, listed, -, hlisted', hoffered, -⟩ := run_offers_listing hvalid hnames hrun
  cases hlisted'
  exact ⟨hvalid, hnames, ⟨summary, hrun⟩, hoffered⟩

end Context

end Netscribe
