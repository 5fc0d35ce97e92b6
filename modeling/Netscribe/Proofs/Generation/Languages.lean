import Netscribe.Proofs.Generation.Storing

/-!
# One design in two languages

The plan of a design knows nothing of a language, and a store asks for no more than the name of a
module.  So two runs of one design, each in its own language and into its own store, go hand in
hand: the same definitions in the same order, and the same reports.

* `GeneratedModule.place`, `Summary.outline` — what is said of a module and of a run apart from the
  text.
* `Answering` — two sinks that answer alike, with `Store.answering` for two stores.
* `RunReport.Course.hand_in_hand` — the courses of the same tasks with two such sinks.
* **`Context.run_languages`** — a language changes the text only.
-/

namespace Netscribe

/-! ## What is not text -/

/-- Where a module belongs: its name and its directory. -/
def GeneratedModule.place (m : GeneratedModule) : String × String :=
  (m.name, m.directory)

/-- The same of a module that was taken. -/
def ModuleSummary.place (m : ModuleSummary) : String × String :=
  (m.name, m.directory)

/-- **What a summary says apart from the text**: the name of the top and the places of the modules,
in order. -/
def Summary.outline (s : Summary) : String × List (String × String) :=
  (s.top, s.modules.map ModuleSummary.place)

@[simp] lemma GeneratedModule.place_ofDefinition (d : Dialect) (directory : String)
    (m : Definition) : (ofDefinition d directory m).place = (m.name, directory) := rfl

namespace RunReport

/-- What a report says apart from the text, when its first module was taken. -/
lemma map_place_taken (r : RunReport (List ModuleSummary)) (m : GeneratedModule)
    (earlier : List Diagnostic) :
    ((r.map (m.summary :: ·)).after earlier).map (List.map ModuleSummary.place)
      = ((r.map (List.map ModuleSummary.place)).map (m.place :: ·)).after earlier := by
  obtain ⟨diagnostics, outcome⟩ := r
  cases outcome <;> rfl

/-- What the report of a whole run says apart from the text. -/
lemma map_outline (r : RunReport (List ModuleSummary)) (top : String) (d : Dialect) :
    (r.map (⟨top, d, ·⟩)).map Summary.outline
      = (r.map (List.map ModuleSummary.place)).map (top, ·) := by
  obtain ⟨diagnostics, outcome⟩ := r
  cases outcome <;> rfl

end RunReport

/-! ## Sinks that answer alike -/

section Answering

variable {σ τ : Type}

/-- **Two sinks answer alike**, one in each language: if their states are related, a definition
written in the two languages gets the same answer from both, and leaves states that are related. -/
def Answering (d d' : Dialect) (related : σ → τ → Prop)
    (offer : GeneratedModule → StateM σ (Except SinkError Unit))
    (offer' : GeneratedModule → StateM τ (Except SinkError Unit)) : Prop :=
  ∀ directory m s t, related s t →
    (offer (.ofDefinition d directory m) s).1 = (offer' (.ofDefinition d' directory m) t).1
    ∧ related (offer (.ofDefinition d directory m) s).2 (offer' (.ofDefinition d' directory m) t).2

variable {d d' : Dialect} {related : σ → τ → Prop}
  {offer : GeneratedModule → StateM σ (Except SinkError Unit)}
  {offer' : GeneratedModule → StateM τ (Except SinkError Unit)}
  {fault : Option (List String × Fault)} {tasks : List Task} {s s' : σ} {t t' : τ}
  {modules modules' : List GeneratedModule} {r r' : RunReport (List ModuleSummary)}

/-- **The courses of the same tasks go hand in hand**, with two sinks that answer alike. -/
theorem RunReport.Course.hand_in_hand (halike : Answering d d' related offer offer')
    (h : Course offer d fault tasks s modules r s') (h' : Course offer' d' fault tasks t modules' r' t')
    (hrelated : related s t) :
    r.map (List.map ModuleSummary.place) = r'.map (List.map ModuleSummary.place) ∧ related s' t' := by
  induction h generalizing t modules' r' with
  | finish =>
      cases h' with
      | finish => exact ⟨rfl, hrelated⟩
  | broken hd =>
      cases h' with
      | broken hd' =>
          obtain rfl := Except.error.inj (hd.symm.trans hd')
          exact ⟨rfl, hrelated⟩
      | refused hd' _ => cases hd.symm.trans hd'
      | taken hd' _ _ => cases hd.symm.trans hd'
  | refused hd hoffer =>
      cases h' with
      | broken hd' => cases hd.symm.trans hd'
      | refused hd' hoffer' =>
          obtain rfl := Except.ok.inj (hd.symm.trans hd')
          obtain ⟨hanswer, hnext⟩ := halike _ _ _ _ hrelated
          rw [hoffer, hoffer'] at hanswer hnext
          obtain rfl := Except.error.inj hanswer
          exact ⟨rfl, hnext⟩
      | taken hd' hoffer' _ =>
          -- one is refused and the other is not
          obtain rfl := Except.ok.inj (hd.symm.trans hd')
          obtain ⟨hanswer, -⟩ := halike _ _ _ _ hrelated
          rw [hoffer, hoffer'] at hanswer
          cases hanswer
  | @taken task tasks s s₁ s' m modules r hd hoffer _ ih =>
      cases h' with
      | broken hd' => cases hd.symm.trans hd'
      | refused hd' hoffer' =>
          obtain rfl := Except.ok.inj (hd.symm.trans hd')
          obtain ⟨hanswer, -⟩ := halike _ _ _ _ hrelated
          rw [hoffer, hoffer'] at hanswer
          cases hanswer
      | @taken _ _ _ t₁ _ _ modules' r' hd' hoffer' hrest =>
          obtain rfl := Except.ok.inj (hd.symm.trans hd')
          obtain ⟨-, hnext⟩ := halike _ _ _ _ hrelated
          rw [hoffer, hoffer'] at hnext
          obtain ⟨hreport, hend⟩ := ih hrest hnext
          refine ⟨?_, hend⟩
          rw [map_place_taken, map_place_taken, hreport, GeneratedModule.place_ofDefinition,
            GeneratedModule.place_ofDefinition]

end Answering

/-! ## Stores -/

namespace Store

/-- Two stores with the same definitions in them, each in its own language. -/
def SameIn (d d' : Dialect) (s s' : Store) : Prop :=
  s.taken = s'.taken ∧ ∃ written : List (String × Definition),
    s.modules = written.map (fun w => .ofDefinition d w.1 w.2)
      ∧ s'.modules = written.map fun w => .ofDefinition d' w.1 w.2

lemma sameIn_empty (d d' : Dialect) : SameIn d d' .empty .empty :=
  ⟨rfl, [], rfl, rfl⟩

/-- A store asks for the name of a module only, and that is the same in all languages. -/
lemma answering (d d' : Dialect) : Answering d d' (SameIn d d') Store.offer Store.offer := by
  rintro directory m s s' ⟨htaken, written, hs, hs'⟩
  by_cases hm : m.name ∈ s.taken
  · rw [offer_of_taken (m := .ofDefinition d directory m) hm,
      offer_of_taken (m := .ofDefinition d' directory m) (htaken ▸ hm)]
    exact ⟨rfl, htaken, written, hs, hs'⟩
  · rw [offer_of_new (m := .ofDefinition d directory m) hm,
      offer_of_new (m := .ofDefinition d' directory m) (htaken ▸ hm)]
    refine ⟨rfl, congrArg (m.name :: ·) htaken, written ++ [(directory, m)], ?_, ?_⟩
    · rw [hs, List.map_append]
      rfl
    · rw [hs', List.map_append]
      rfl

lemma SameIn.places {d d' : Dialect} {s s' : Store} (h : SameIn d d' s s') :
    s.modules.map GeneratedModule.place = s'.modules.map GeneratedModule.place := by
  obtain ⟨-, written, hs, hs'⟩ := h
  rw [hs, hs', List.map_map, List.map_map]
  rfl

end Store

/-! ## Runs -/

/-- **A language changes the text only.**  Two runs of one design, in two languages and each into an
empty store, report the same, one after the other; they both succeed, with the same top and the same
modules, or both fail with the same fault; and also where they fail, the stores have the same modules
in the same order, by name and directory, each written from the same definition. -/
theorem Context.run_languages (ctx : Context) (scope : String) (d d' : Dialect) :
    (ctx.run scope d Store.offer .empty).1.diagnostics
        = (ctx.run scope d' Store.offer .empty).1.diagnostics
    ∧ (ctx.run scope d Store.offer .empty).1.outcome.map Summary.outline
        = (ctx.run scope d' Store.offer .empty).1.outcome.map Summary.outline
    ∧ (ctx.run scope d Store.offer .empty).2.modules.map GeneratedModule.place
        = (ctx.run scope d' Store.offer .empty).2.modules.map GeneratedModule.place
    ∧ ∃ written : List (String × Definition),
        (ctx.run scope d Store.offer .empty).2.modules
          = written.map (fun w => .ofDefinition d w.1 w.2)
        ∧ (ctx.run scope d' Store.offer .empty).2.modules
          = written.map (fun w => .ofDefinition d' w.1 w.2) := by
  have hboth : (ctx.run scope d Store.offer .empty).1.map Summary.outline
        = (ctx.run scope d' Store.offer .empty).1.map Summary.outline
      ∧ Store.SameIn d d' (ctx.run scope d Store.offer .empty).2
          (ctx.run scope d' Store.offer .empty).2 := by
    cases htop : ctx.design.topCircuit? with
    | none =>
        rw [run_of_none htop, run_of_none htop]
        exact ⟨rfl, Store.sameIn_empty d d'⟩
    | some top =>
        obtain ⟨hreport, hstores⟩ := (run_course htop scope d Store.offer .empty).hand_in_hand
          (Store.answering d d') (run_course htop scope d' Store.offer .empty)
          (Store.sameIn_empty d d')
        refine ⟨?_, hstores⟩
        rw [run_of_top htop, run_of_top htop, RunReport.map_outline, RunReport.map_outline, hreport]
  obtain ⟨hreport, hstores⟩ := hboth
  have hdiagnostics := congrArg RunReport.diagnostics hreport
  have houtcome := congrArg RunReport.outcome hreport
  exact ⟨hdiagnostics, houtcome, hstores.places, hstores.2⟩

end Netscribe
