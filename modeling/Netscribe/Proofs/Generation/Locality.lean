import Mathlib.Data.List.Basic
import Netscribe.Proofs.Circuit.Parts
import Netscribe.Proofs.Design.Acyclic
import Netscribe.Proofs.Generation.Listing
import Netscribe.Proofs.Generation.Offers

/-!
# What a run reads

A run reads the circuits below the top, and of the registry the factories that their components ask
for by name.  What else a design or a registry has makes no difference.

* `Design.Below` — the circuits below the top, by position.
* `Context.AgreesAt` — two contexts that a netlist cannot tell apart, with
  **`Context.AgreesAt.definition_eq`**.
* `Context.AgreesBelow` — two contexts that agree below the top.
* `Plan.visit_eq` — both are walked through alike, with `Context.AgreesBelow.plan_eq`.
* **`Context.run_local`** — runs of two such contexts do not differ.
-/

namespace Netscribe

/-! ## Below the top -/

namespace Design

/-- **A circuit is the top or below it**, also where it does not exist. -/
def Below (d : Design) (id : UInt32) : Prop :=
  Relation.ReflTransGen d.Instantiates d.top id

variable {d : Design} {id : UInt32}

lemma below_top (d : Design) : d.Below d.top :=
  .refl

lemma Below.instance (h : d.Below id) {c : Circuit} (hc : d.circuit? id = some c) {x : Component}
    (hx : x ∈ c.netlist.instances) {child : UInt32} {gated : Bool}
    (htarget : x.target? = some (child, gated)) : d.Below child :=
  h.tail ⟨c, hc, Netlist.mem_children (Netlist.mem_targets hx htarget)⟩

/-- A list with the top and all that its circuits instantiate has everything below the top. -/
lemma Below.mem {ids : List UInt32} (htop : d.top ∈ ids)
    (hclosed : (ids.all fun id =>
      (d.circuit? id).all fun c => c.netlist.children.all fun child => child ∈ ids) = true)
    (h : d.Below id) : id ∈ ids := by
  induction h with
  | refl => exact htop
  | tail _ hstep ih =>
      obtain ⟨c, hc, hchild⟩ := hstep
      have hall := List.all_eq_true.1 hclosed _ ih
      rw [hc, Option.all_some] at hall
      simpa using List.all_eq_true.1 hall _ hchild

end Design

/-! ## What a definition reads -/

namespace Context

variable {ctx ctx' : Context} {nl : Netlist}

/-- **Two contexts that a netlist cannot tell apart**: whatever it asks for gets the same answer from
both. -/
structure AgreesAt (ctx ctx' : Context) (nl : Netlist) : Prop where
  systemClock : ctx.systemClock = ctx'.systemClock
  components : ∀ c ∈ nl.components, ctx.resolve c = ctx'.resolve c
  instances : ∀ c ∈ nl.instances, ctx.target c = ctx'.target c

namespace AgreesAt

lemma declarations_eq (h : ctx.AgreesAt ctx' nl) : ctx.declarations nl = ctx'.declarations nl := by
  have hprimitives : nl.components.mapM ctx.primitiveDeclaration
      = nl.components.mapM ctx'.primitiveDeclaration :=
    mapM_congr fun c hc => by
      rw [primitiveDeclaration, primitiveDeclaration, h.components c hc]
  have hinstances : nl.instances.mapM ctx.instanceDeclaration
      = nl.instances.mapM ctx'.instanceDeclaration :=
    mapM_congr fun c hc => by
      rw [instanceDeclaration, instanceDeclaration, h.instances c hc]
  rw [declarations, declarations, hprimitives, hinstances]

lemma placeComponents_eq (h : ctx.AgreesAt ctx' nl) {cs : List Component}
    (hcs : cs ⊆ nl.components) (inlineId instanceId : ℕ) :
    ctx.placeComponents nl inlineId instanceId cs
      = ctx'.placeComponents nl inlineId instanceId cs := by
  induction cs generalizing inlineId instanceId with
  | nil => rfl
  | cons c cs ih =>
      have hrest := ih (List.subset_of_cons_subset hcs)
      rw [placeComponents, placeComponents, h.components c (hcs List.mem_cons_self)]
      simp only [hrest]

lemma placeInstances_eq (h : ctx.AgreesAt ctx' nl) :
    ctx.placeInstances nl = ctx'.placeInstances nl := by
  rw [placeInstances, placeInstances]
  refine congrArg (· >>= _) (mapM_congr ?_)
  rintro ⟨c, index⟩ hx
  simp only [h.instances c (List.fst_mem_of_mem_zipIdx hx)]

lemma sections_eq (h : ctx.AgreesAt ctx' nl) : ctx.sections nl = ctx'.sections nl := by
  rw [sections, sections, h.systemClock, h.placeComponents_eq (List.Subset.refl _),
    h.placeInstances_eq]

/-- **A definition reads nothing else**: it is the same, with the same warnings, or fails with the
same fault. -/
theorem definition_eq {c : Circuit} (h : ctx.AgreesAt ctx' c.netlist) (name : String) :
    ctx.definition c name = ctx'.definition c name := by
  rw [definition, definition, h.declarations_eq, h.sections_eq]

end AgreesAt

/-! ## Two contexts -/

/-- **Two contexts that agree below the top**: the tops are at one position, every circuit below is
the same in both designs or missing in both, and its components find the same factories under the
names they ask for. -/
structure AgreesBelow (ctx ctx' : Context) : Prop where
  systemClock : ctx.systemClock = ctx'.systemClock
  top : ctx.design.top = ctx'.design.top
  circuits : ∀ id, ctx.design.Below id → ctx.design.circuit? id = ctx'.design.circuit? id
  factories : ∀ id c, ctx.design.Below id → ctx.design.circuit? id = some c →
    ∀ x ∈ c.netlist.components, ∀ name attributes, x.kind = .primitive name attributes →
      ctx.registry.factory? name = ctx'.registry.factory? name

namespace AgreesBelow

variable {id : UInt32} {c : Circuit}

lemma topCircuit?_eq (h : ctx.AgreesBelow ctx') :
    ctx.design.topCircuit? = ctx'.design.topCircuit? := by
  rw [Design.topCircuit?, Design.topCircuit?, h.circuits _ ctx.design.below_top, h.top]

/-- No circuit below the top can tell them apart. -/
lemma agreesAt (h : ctx.AgreesBelow ctx') (hid : ctx.design.Below id)
    (hc : ctx.design.circuit? id = some c) : ctx.AgreesAt ctx' c.netlist := by
  refine ⟨h.systemClock, fun x hx => ?_, fun x hx => ?_⟩
  · have hresolve : ctx.registry.resolve? x = ctx'.registry.resolve? x := by
      rw [Registry.resolve?, Registry.resolve?]
      cases hkind : x.kind with
      | primitive name attributes => simp only [h.factories id c hid hc x hx name attributes hkind]
      | _ => rfl
    rw [resolve, resolve, hresolve]
  · rw [target, target]
    rcases htarget : x.target? with _ | ⟨child, gated⟩
    · rfl
    · simp only [h.circuits child (hid.instance hc hx htarget)]

end AgreesBelow

end Context

/-! ## Walks -/

namespace Plan

variable {ctx ctx' : Context} {p : Plan} {path : List String} {x : Component}

lemma component_eq (h : ctx.resolve x = ctx'.resolve x) :
    p.component ctx path x = p.component ctx' path x := by
  rw [component, component, h]

lemma instance_eq {walk walk' : Walk} (h : ctx.target x = ctx'.target x)
    (hwalk : ∀ id gated child, x.target? = some (id, gated) → ctx.design.circuit? id = some child →
      ∀ path p, walk path id gated child p = walk' path id gated child p) :
    p.instance ctx path walk x = p.instance ctx' path walk' x := by
  rw [Plan.instance, Plan.instance, ← h]
  split
  · rfl
  · cases hx : (ctx.target x).outcome with
    | error fault => rfl
    | ok found =>
        have hfound := Context.target_eq_ok_iff.1 hx
        rcases htarget : x.target? with _ | ⟨id, gated⟩
        · rw [htarget] at hfound
          subst hfound
          rfl
        · rw [htarget] at hfound
          obtain ⟨child, hchild, rfl⟩ := hfound
          simp only [hwalk id gated child htarget hchild]

/-- **Contexts that agree below the top are walked through alike**, each with as many levels as its
own design needs. -/
theorem visit_eq (h : ctx.AgreesBelow ctx') (levels : ℕ) :
    ∀ (levels' : ℕ) (path : List String) (id : UInt32) (gated : Bool) (c : Circuit) (p : Plan),
      ctx.design.Below id → ctx.design.circuit? id = some c →
      ctx.design.Shallow levels id → ctx'.design.Shallow levels' id →
        visit ctx levels path id gated c p = visit ctx' levels' path id gated c p := by
  induction levels with
  | zero =>
      intro levels' path id gated c p _ hc hshallow
      cases hc.symm.trans hshallow
  | succ levels ih =>
      intro levels' path id gated c p hid hc hshallow hshallow'
      have hc' : ctx'.design.circuit? id = some c := (h.circuits id hid).symm.trans hc
      cases levels' with
      | zero => cases hc'.symm.trans hshallow'
      | succ levels' =>
          have hagrees := h.agreesAt hid hc
          have hcomponents : c.netlist.components.foldl (component ctx path) p
              = c.netlist.components.foldl (component ctx' path) p :=
            List.foldl_ext _ _ _ fun q x hx => component_eq (hagrees.components x hx)
          have hinstances : ∀ q : Plan,
              c.netlist.instances.foldl (Plan.instance ctx path (visit ctx levels)) q
                = c.netlist.instances.foldl (Plan.instance ctx' path (visit ctx' levels')) q := by
            intro q
            refine List.foldl_ext _ _ _ fun q x hx => instance_eq (hagrees.instances x hx) ?_
            intro child gated' circuit htarget hcircuit path' q'
            have hchild := Netlist.mem_children (Netlist.mem_targets hx htarget)
            exact ih levels' path' child gated' circuit q' (hid.instance hc hx htarget) hcircuit
              (hshallow c hc child hchild) (hshallow' c hc' child hchild)
          rw [visit, visit, hcomponents, hinstances, circuit, circuit, hagrees.definition_eq]

end Plan

/-! ## Runs -/

namespace Context

variable {ctx ctx' : Context}

/-- Contexts that agree below the top have one plan. -/
theorem AgreesBelow.plan_eq (h : ctx.AgreesBelow ctx') (hacyclic : ctx.design.Acyclic)
    (hacyclic' : ctx'.design.Acyclic) {top : Circuit} (htop : ctx.design.topCircuit? = some top) :
    ctx.plan top = ctx'.plan top := by
  rw [plan, plan, ← h.top]
  exact Plan.visit_eq h _ _ _ _ _ _ _ ctx.design.below_top htop (hacyclic.shallow _)
    (hacyclic'.shallow _)

/-- Contexts that agree below the top have one run, wherever the modules go. -/
theorem AgreesBelow.run_eq (h : ctx.AgreesBelow ctx') (hacyclic : ctx.design.Acyclic)
    (hacyclic' : ctx'.design.Acyclic) {m : Type → Type} [Monad m] (scope : String) (d : Dialect)
    (offer : GeneratedModule → m (Except SinkError Unit)) :
    ctx.run scope d offer = ctx'.run scope d offer := by
  cases htop : ctx.design.topCircuit? with
  | none =>
      rw [run, run, Context.top, Context.top, ← h.topCircuit?_eq, htop, h.top]
      rfl
  | some top =>
      have hplan := h.plan_eq hacyclic hacyclic' htop
      rw [run, run, Context.top, Context.top, ← h.topCircuit?_eq, htop]
      simp only [Attempt.orFail, Attempt.succeed, hplan]

variable {σ : Type}

/-- **What a run does depends only on what is below the top.**  In two acyclic designs with the same
top, which have the same circuits below it, or miss the same, and may differ in all others, and with
two registries that agree on the factories used there, runs do not differ, in any language and with
any sink: they offer the same modules in the same order, report the same, have the same outcome and
leave the sink in the same state. -/
theorem run_local (hacyclic : ctx.design.Acyclic) (hacyclic' : ctx'.design.Acyclic)
    (h : ctx.AgreesBelow ctx') (scope : String) (d : Dialect)
    (offer : GeneratedModule → StateM σ (Except SinkError Unit)) (s : σ) :
    ctx.run scope d offer s = ctx'.run scope d offer s
    ∧ ctx.offered scope d offer s = ctx'.offered scope d offer s := by
  rw [offered, offered, h.run_eq hacyclic hacyclic', h.run_eq hacyclic hacyclic']
  exact ⟨rfl, rfl⟩

/-- A circuit with an inverter. -/
def inverter : Circuit where
  name := "leaf"
  netlist := {
    components := [{ kind := .primitive "NOT" .empty
                     terminals := [.unconnected .output 1, .unconnected .input 1] }] }

/-- A circuit with an instance of the first circuit. -/
def around : Circuit where
  name := "main"
  netlist := { instances := [{ kind := .instance 0 false }] }

/-- A circuit that asks for a primitive nobody knows. -/
def unknowing : Circuit where
  name := "broken"
  netlist := { components := [{ kind := .primitive "unknown" .empty }] }

/-- An inverter below the top, and all built-in factories. -/
def alone : Context where
  design := { circuits := #[inverter, around], top := 1 }

/-- The same beside a circuit that cannot be made, and with another gate under a name that is not
used below the top. -/
def accompanied : Context where
  design := { circuits := #[inverter, around, unknowing], top := 1 }
  registry := Registry.builtins.register "AND" (.gate .or)

/-- Neither of the two makes a difference to a run. -/
theorem run_local_accompanied :
    alone.design.Acyclic ∧ accompanied.design.Acyclic ∧ alone.AgreesBelow accompanied
    ∧ (alone.run "" .verilog takeAll ()).1.outcome.map Summary.top = .ok "main"
    ∧ alone.run "" .verilog takeAll () = accompanied.run "" .verilog takeAll () := by
  have hacyclic : alone.design.Acyclic := Design.acyclic_of_lt (by decide)
  have hacyclic' : accompanied.design.Acyclic := Design.acyclic_of_lt (by decide)
  have hbelow : ∀ id, alone.design.Below id → id ∈ [1, 0] :=
    fun id => Design.Below.mem (by decide) (by decide)
  have hagrees : alone.AgreesBelow accompanied := by
    refine ⟨rfl, rfl, fun id hid => ?_, fun id c hid hc x hx name attributes hkind => ?_⟩
    · rcases List.mem_pair.1 (hbelow id hid) with rfl | rfl <;> rfl
    · rcases List.mem_pair.1 (hbelow id hid) with rfl | rfl
      · obtain rfl := Option.some.inj hc
        cases hx
      · obtain rfl := Option.some.inj hc
        obtain rfl := List.mem_singleton.1 hx
        obtain ⟨rfl, -⟩ := Kind.primitive.inj hkind
        decide
  exact ⟨hacyclic, hacyclic', hagrees, rfl,
    (run_local hacyclic hacyclic' hagrees "" .verilog takeAll ()).1⟩

end Context

end Netscribe
