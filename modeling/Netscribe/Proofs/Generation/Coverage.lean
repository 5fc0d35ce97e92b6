import Netscribe.Proofs.Generation.Listing

/-!
# A walk that remembers covers what is listed without memory

A plan covers the part of a listing that the walk has come to: it has handled the names of that part
and planned its written definitions, each at its first occurrence.  This is kept as long as a name
that was handled before never stands for a definition that is still to come; under that condition
to pass over a handled name, with all that is below it, loses nothing.

* `Plan.Covers` — what a plan has of a list of origins.
* `Plan.Faithful` — no handled name stands for another definition.
* `Plan.Covers.pass`, `Plan.Covers.mark`, `Plan.Covers.add` — what keeps it.
* **`Plan.visit_covers`** — a walk through a circuit covers its listing.
-/

namespace Netscribe

namespace Plan

/-- **What a plan has of the origins that a walk has come to.** -/
structure Covers (ctx : Context) (xs : List Origin) (p : Plan) : Prop where
  /-- Their names are handled, and no others. -/
  handled : ∀ name, name ∈ p.handled ↔ name ∈ xs.map ctx.nameOf
  /-- The written ones are planned, each where it came first. -/
  written : p.origins = (xs.filter Origin.isWritten).eraseDups
  /-- None of these comes second under its name. -/
  ownFirst : ctx.OwnFirst xs
  /-- With a circuit there is all of its listing. -/
  closed : ∀ id gated levels l, .circuit id gated ∈ xs → ctx.listing levels id gated = some l →
    l ⊆ xs
  /-- What a planned circuit instantiates is planned before. -/
  ordered : ∀ (i : ℕ) (id : UInt32) (gated : Bool), p.origins[i]? = some (.circuit id gated) →
    ∀ u ∈ ctx.uses id, ∃ j < i, p.origins[j]? = some u

variable {ctx : Context} {xs l : List Origin} {p : Plan} {o : Origin}

/-! ## What keeps it -/

namespace Covers

lemma empty : Covers ctx [] {} :=
  ⟨by simp, rfl, by simp [Context.OwnFirst], by simp, by simp [origins]⟩

lemma mem_origins (h : Covers ctx xs p) : o ∈ p.origins ↔ o ∈ xs ∧ o.isWritten = true := by
  rw [h.written, List.mem_eraseDups, List.mem_filter]

/-- An entry that is found in a list is found in a longer one. -/
lemma ownFirst_append (h : ctx.OwnFirst xs) (ho : o ∈ xs) (hwritten : o.isWritten = true)
    (l : List Origin) : (xs ++ l).find? (fun x => ctx.nameOf x == ctx.nameOf o) = some o := by
  rw [List.find?_append, h o ho hwritten, Option.some_or]

/-- **To pass over handled names loses nothing** if the written definitions that they stand for are
there. -/
lemma pass (h : Covers ctx xs p) (hnames : ∀ o ∈ l, ctx.nameOf o ∈ p.handled)
    (hwritten : ∀ o ∈ l, o.isWritten = true → o ∈ xs) : Covers ctx (xs ++ l) p where
  handled := by
    intro name
    rw [List.map_append, List.mem_append, ← h.handled]
    refine ⟨.inl, ?_⟩
    rintro (hname | hname)
    · exact hname
    · obtain ⟨o, ho, rfl⟩ := List.mem_map.1 hname
      exact hnames o ho
  written := by
    rw [List.filter_append, eraseDups_append_of_subset, h.written]
    intro o ho
    obtain ⟨ho, ho'⟩ := List.mem_filter.1 ho
    exact List.mem_filter.2 ⟨hwritten o ho ho', ho'⟩
  ownFirst := by
    intro o ho ho'
    rcases List.mem_append.1 ho with ho | ho
    · exact ownFirst_append h.ownFirst ho ho' l
    · exact ownFirst_append h.ownFirst (hwritten o ho ho') ho' l
  closed := by
    intro id gated levels l' hid hl' o ho
    refine List.mem_append_left _ (h.closed id gated levels l' ?_ hl' ho)
    rcases List.mem_append.1 hid with hid | hid
    · exact hid
    · exact hwritten _ hid rfl
  ordered := h.ordered

/-- The name of a primitive that is not written is handled. -/
lemma mark {primitive : Primitive} (h : Covers ctx xs p)
    (hwritten : (Origin.primitive primitive).isWritten = false) :
    Covers ctx (xs ++ [.primitive primitive]) (p.mark primitive.name) where
  handled := by
    intro name
    simp only [Plan.mark, List.mem_cons, h.handled, List.map_append, List.mem_append, List.map_cons,
      List.map_nil, Context.nameOf_primitive, List.not_mem_nil, or_false]
    exact or_comm
  written := by
    rw [origins_mark, h.written, List.filter_append, List.filter_cons_of_neg (by simp [hwritten])]
    simp
  ownFirst := by
    intro o ho ho'
    rcases List.mem_append.1 ho with ho | ho
    · exact ownFirst_append h.ownFirst ho ho' _
    · rw [List.mem_singleton.1 ho, hwritten] at ho'
      cases ho'
  closed := by
    intro id gated levels l' hid hl' o ho
    refine List.mem_append_left _ (h.closed id gated levels l' ?_ hl' ho)
    simpa using hid
  ordered := h.ordered

/-- **A written definition with a new name is planned**, after all that it instantiates. -/
lemma add (task : Task) (h : Covers ctx xs p) (hwritten : task.origin.isWritten = true)
    (hname : ctx.nameOf task.origin ∉ p.handled)
    (hlisting : ∀ id gated levels l, task.origin = .circuit id gated →
      ctx.listing levels id gated = some l → l ⊆ xs ++ [task.origin])
    (huses : ∀ id gated, task.origin = .circuit id gated → ctx.uses id ⊆ xs) :
    Covers ctx (xs ++ [task.origin]) (p.add (ctx.nameOf task.origin) task) where
  handled := by
    intro name
    simp only [Plan.add, List.mem_cons, h.handled, List.map_append, List.mem_append, List.map_cons,
      List.map_nil, List.not_mem_nil, or_false]
    exact or_comm
  written := by
    have hnew : task.origin ∉ xs.filter Origin.isWritten := by
      intro hmem
      exact hname ((h.handled _).2 (List.mem_map_of_mem (List.mem_filter.1 hmem).1))
    rw [origins_add, h.written, List.filter_append, List.filter_cons_of_pos hwritten,
      List.filter_nil, eraseDups_concat, if_neg hnew]
  ownFirst := by
    intro o ho ho'
    rcases List.mem_append.1 ho with ho | ho
    · exact ownFirst_append h.ownFirst ho ho' _
    · obtain rfl := List.mem_singleton.1 ho
      have hnone : xs.find? (fun x => ctx.nameOf x == ctx.nameOf task.origin) = none := by
        rw [List.find?_eq_none]
        intro x hx hsame
        exact hname ((h.handled _).2 (List.mem_map.2 ⟨x, hx, by simpa using hsame⟩))
      rw [List.find?_append, hnone]
      simp
  closed := by
    intro id gated levels l' hid hl'
    rcases List.mem_append.1 hid with hid | hid
    · exact fun o ho => List.mem_append_left _ (h.closed id gated levels l' hid hl' ho)
    · exact hlisting id gated levels l' (List.mem_singleton.1 hid).symm hl'
  ordered := by
    intro i id gated hi u hu
    rw [origins_add] at hi ⊢
    rcases Nat.lt_or_ge i p.origins.length with hlt | hge
    · rw [List.getElem?_append_left hlt] at hi
      obtain ⟨j, hj, hju⟩ := h.ordered i id gated hi u hu
      exact ⟨j, hj, by rwa [List.getElem?_append_left (by omega)]⟩
    · -- the new one: what it instantiates is among the origins before it
      rw [List.getElem?_append_right hge, List.getElem?_singleton] at hi
      split at hi
      · next hzero =>
          have hmem : u ∈ p.origins := by
            refine h.mem_origins.2 ⟨huses id gated (Option.some.inj hi) hu, ?_⟩
            exact Context.isWritten_of_mem_uses hu
          obtain ⟨j, hj, hju⟩ := List.getElem_of_mem hmem
          refine ⟨j, by omega, ?_⟩
          rw [List.getElem?_append_left hj, List.getElem?_eq_getElem hj, hju]
      · cases hi

end Covers

/-! ## Walks -/

/-- **No handled name stands for another definition**: wherever a walk to `final` has come, the
written definitions whose names are handled are planned. -/
def Faithful (ctx : Context) (listed : List Origin) (final : Plan) : Prop :=
  ∀ q zs, zs <+: listed → Covers ctx zs q → Steps ctx q final →
    ∀ o ∈ listed, o.isWritten = true → ctx.nameOf o ∈ q.handled → o ∈ q.origins

section Walks

variable {listed : List Origin} {final : Plan}

/-- A plan from which the walk comes to its end has not ended at a fault. -/
lemma running_of_steps (hfinal : final.fault = none) (h : Steps ctx p final) : p.fault = none :=
  h.extends_of.running hfinal

lemma mem_of_append_part (h : (xs ++ l) <+: listed) (ho : o ∈ l) : o ∈ listed :=
  h.subset (List.mem_append_right _ ho)

lemma part_of_append_part (h : (xs ++ l) <+: listed) : xs <+: listed :=
  (List.prefix_append xs l).trans h

lemma component_covers (hfinal : final.fault = none) (hfaithful : Faithful ctx listed final)
    {path : List String} {c : Component} (h : Covers ctx xs p)
    (hpart : (xs ++ (ctx.registry.resolve? c).toList.map .primitive) <+: listed)
    (hsteps : Steps ctx (p.component ctx path c) final) :
    Covers ctx (xs ++ (ctx.registry.resolve? c).toList.map .primitive)
      (p.component ctx path c) := by
  have hp := (component_steps ctx path p c).trans hsteps
  have hrunning := running_of_steps hfinal hp
  cases hc : ctx.registry.resolve? c with
  | none =>
      rw [component_of_none path hrunning hc] at hsteps
      cases running_of_steps hfinal hsteps
  | some primitive =>
      rw [hc] at hpart
      simp only [Option.toList_some, List.map_cons, List.map_nil] at hpart ⊢
      rw [component_of_some hrunning hc]
      split
      · next hname =>
          refine h.pass (by simpa using hname) ?_
          intro o ho hwritten
          obtain rfl := List.mem_singleton.1 ho
          have ho := hfaithful p xs (part_of_append_part hpart) h hp _
            (mem_of_append_part hpart ho) hwritten hname
          exact (h.mem_origins.1 ho).1
      · next hname =>
          split
          · next hnone => exact h.mark ((Primitive.definition?_eq_none_iff _).1 hnone)
          · next definition hsome =>
              refine h.add ⟨.primitive primitive, primitive.directory, path, _⟩ ?_ hname
                (by simp) (by simp)
              rw [← Bool.not_eq_false, ← Primitive.definition?_eq_none_iff primitive.name,
                hsome]
              simp

lemma components_covers (hfinal : final.fault = none) (hfaithful : Faithful ctx listed final)
    (path : List String) (cs : List Component) (h : Covers ctx xs p)
    (hpart : (xs ++ (cs.filterMap ctx.registry.resolve?).map .primitive) <+: listed)
    (hsteps : Steps ctx (cs.foldl (component ctx path) p) final) :
    Covers ctx (xs ++ (cs.filterMap ctx.registry.resolve?).map .primitive)
      (cs.foldl (component ctx path) p) := by
  induction cs generalizing xs p with
  | nil => simpa using h
  | cons c cs ih =>
      have hsplit : ((c :: cs).filterMap ctx.registry.resolve?).map Origin.primitive
          = (ctx.registry.resolve? c).toList.map .primitive
            ++ (cs.filterMap ctx.registry.resolve?).map .primitive := by
        cases hc : ctx.registry.resolve? c <;> simp [hc]
      rw [hsplit, ← List.append_assoc] at hpart ⊢
      have hfold := foldl_steps (component_steps ctx path) (p.component ctx path c) cs
      exact ih (component_covers hfinal hfaithful h (part_of_append_part hpart)
        (hfold.trans hsteps)) hpart hsteps

/-- **What a walk through a circuit has to keep**, with so many levels left. -/
def WalkCovers (ctx : Context) (listed : List Origin) (final : Plan) (levels : ℕ)
    (walk : Walk) : Prop :=
  ∀ path id gated c p xs l, ctx.design.circuit? id = some c →
    ctx.listing levels id gated = some l → Covers ctx xs p → (xs ++ l) <+: listed →
      Steps ctx (walk path id gated c p) final → Covers ctx (xs ++ l) (walk path id gated c p)

variable {levels : ℕ} {walk : Walk}

lemma instance_covers (hfinal : final.fault = none) (hfaithful : Faithful ctx listed final)
    (hwalk : WalkCovers ctx listed final levels walk)
    {path : List String} {c : Component} {id : UInt32} {gated : Bool} (h : Covers ctx xs p)
    (hc : c.target? = some (id, gated)) (hl : ctx.listing levels id gated = some l)
    (hpart : (xs ++ l) <+: listed) (hp : Steps ctx p final)
    (hsteps : Steps ctx (p.instance ctx path walk c) final) :
    Covers ctx (xs ++ l) (p.instance ctx path walk c) := by
  obtain ⟨child, hchild⟩ := Context.circuit_of_listing hl
  rw [instance_of_some (running_of_steps hfinal hp) hc hchild] at hsteps ⊢
  split at hsteps
  · next hname =>
      rw [if_pos hname]
      rw [← Context.nameOf_circuit hchild gated] at hname
      -- the circuit of the handled name is this one, so all of its listing is there
      have hown := hfaithful p xs (part_of_append_part hpart) h hp _
        (mem_of_append_part hpart (Context.own_mem hl)) rfl hname
      have hsub := h.closed id gated levels l (h.mem_origins.1 hown).1 hl
      refine h.pass (fun o ho => ?_) fun o ho _ => hsub ho
      exact (h.handled _).2 (List.mem_map_of_mem (hsub ho))
  · next hname =>
      rw [if_neg hname]
      exact hwalk _ id gated child p xs l hchild hl h hpart hsteps

lemma instances_covers (hfinal : final.fault = none) (hfaithful : Faithful ctx listed final)
    (hwalkSteps : ∀ path id gated c p, ctx.design.circuit? id = some c →
      Steps ctx p (walk path id gated c p))
    (hwalk : WalkCovers ctx listed final levels walk) (path : List String) (cs : List Component)
    {below : List (List Origin)}
    (hbelow : ((cs.filterMap Component.target?).map fun t => ctx.listing levels t.1 t.2)
      = below.map some)
    (h : Covers ctx xs p) (hpart : (xs ++ below.flatten) <+: listed)
    (hsteps : Steps ctx (cs.foldl (Plan.instance ctx path walk) p) final) :
    Covers ctx (xs ++ below.flatten) (cs.foldl (Plan.instance ctx path walk) p) := by
  induction cs generalizing xs p below with
  | nil =>
      obtain rfl : below = [] := by simpa using hbelow.symm
      simpa using h
  | cons c cs ih =>
      have hfold := foldl_steps (instance_steps path hwalkSteps) (p.instance ctx path walk c) cs
      rcases hc : c.target? with _ | ⟨id, gated⟩
      · rw [List.filterMap_cons_none hc] at hbelow
        rw [List.foldl_cons, instance_of_none hc] at hsteps ⊢
        exact ih hbelow h hpart hsteps
      · rw [List.filterMap_cons_some hc] at hbelow
        cases below with
        | nil => simp at hbelow
        | cons b below =>
            obtain ⟨hb, hbelow⟩ := by simpa using hbelow
            rw [List.flatten_cons, ← List.append_assoc] at hpart ⊢
            have hinstance := hfold.trans hsteps
            exact ih (by simpa using hbelow)
              (instance_covers hfinal hfaithful hwalk h hc hb (part_of_append_part hpart)
                ((instance_steps path hwalkSteps p c).trans hinstance) hinstance) hpart hsteps

lemma circuit_covers (hfaithful : Faithful ctx listed final) {path : List String} {id : UInt32}
    {gated : Bool} {c : Circuit} (hc : ctx.design.circuit? id = some c) (h : Covers ctx xs p)
    (hl : ∀ levels l, ctx.listing levels id gated = some l → l ⊆ xs ++ [.circuit id gated])
    (huses : ctx.uses id ⊆ xs) (hpart : (xs ++ [.circuit id gated]) <+: listed)
    (hrunning : p.fault = none) (hp : Steps ctx p final) :
    Covers ctx (xs ++ [.circuit id gated]) (circuit ctx path id gated c p) := by
  rw [circuit, ← Context.nameOf_circuit hc gated]
  by_cases hname : ctx.nameOf (.circuit id gated) ∈ p.handled
  · rw [if_pos (by simp [hname])]
    have hown := hfaithful p xs (part_of_append_part hpart) h hp _
      (mem_of_append_part hpart (List.mem_singleton_self _)) rfl hname
    exact h.pass (by simpa using hname) (by simpa using (h.mem_origins.1 hown).1)
  · rw [if_neg (by simp [hname, isHalted, hrunning])]
    refine h.add ⟨.circuit id gated, circuitDirectory, path, _⟩ rfl hname ?_ ?_
    · rintro _ _ levels l ⟨⟩ hlisting
      exact hl levels l hlisting
    · rintro _ _ ⟨⟩
      exact huses

/-- **A walk through a circuit covers its listing.** -/
theorem visit_covers (hfinal : final.fault = none) (hfaithful : Faithful ctx listed final) :
    ∀ levels, WalkCovers ctx listed final levels (visit ctx levels) := by
  intro levels
  induction levels with
  | zero =>
      intro path id gated c p xs l _ hl
      cases hl
  | succ levels ih =>
      intro path id gated c p xs l hc hl h hpart hsteps
      obtain ⟨c', below, hc', hbelow, rfl⟩ := Context.listing_succ_eq_some_iff.1 hl
      obtain rfl : c = c' := Option.some.inj (hc.symm.trans hc')
      rw [visit] at hsteps ⊢
      rw [← List.append_assoc] at hpart ⊢
      -- the walk goes through three parts, and so does the listing
      have hcircuit := (circuit_steps hc path gated _).trans hsteps
      have hinstances := (foldl_steps (instance_steps path fun path id gated c p =>
        visit_steps levels path id gated c p) _ c.netlist.instances).trans hcircuit
      have hpart' := part_of_append_part hpart
      rw [← List.append_assoc] at hpart'
      have hprims := components_covers hfinal hfaithful path c.netlist.components h
        (part_of_append_part hpart') hinstances
      have hbelow' := instances_covers hfinal hfaithful
        (fun path id gated c p => visit_steps levels path id gated c p) ih path
        c.netlist.instances hbelow hprims hpart' hcircuit
      rw [List.append_assoc] at hbelow'
      refine circuit_covers hfaithful hc hbelow' ?_ ?_ hpart
        (running_of_steps hfinal hcircuit) hcircuit
      · intro n l hl'
        obtain rfl := Context.listing_unique hl hl'
        rw [List.append_assoc xs]
        exact List.subset_append_right _ _
      · exact fun u hu => List.mem_append_right _ (Context.uses_subset hl hu)

end Walks

end Plan

end Netscribe
