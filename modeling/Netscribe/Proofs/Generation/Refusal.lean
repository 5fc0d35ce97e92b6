import Netscribe.Proofs.Generation.Offers

/-!
# Sinks that refuse

A sink has no say in what a run does, only in how far it comes: what is offered to it is offered to
a sink that takes everything too, up to the first refusal, and nothing is offered after that.

* `RunReport.Course.prefix_of_accepting` — a course beside that of a sink that takes everything.
* `RunReport.Course.answers` — the answers on the way: only the last one can be a refusal.
* **`Context.run_truncates`** — a refusal cuts a run short and changes nothing before it.
-/

namespace Netscribe

variable {σ τ : Type} {offer : GeneratedModule → StateM σ (Except SinkError Unit)}
  {accepting : GeneratedModule → StateM τ (Except SinkError Unit)} {d : Dialect}

namespace RunReport.Course

variable {fault : Option (List String × Fault)} {tasks : List Task} {s s' : σ} {t t' : τ}
  {modules modules' : List GeneratedModule} {r r' : RunReport (List ModuleSummary)}

/-- **Two courses of the same tasks**, one with a sink that takes everything: this one offers what
the other does and perhaps more, and if the other is never refused, they do not differ. -/
theorem prefix_of_accepting (haccepts : ∀ m t, (accepting m t).1 = .ok ())
    (h : Course offer d fault tasks s modules r s')
    (h' : Course accepting d fault tasks t modules' r' t') :
    modules <+: modules'
      ∧ ((∀ a ∈ (offerAll offer modules s).1, a = .ok ()) → modules = modules' ∧ r = r') := by
  induction h generalizing t modules' r' with
  | finish =>
      cases h' with
      | finish => exact ⟨List.prefix_refl _, fun _ => ⟨rfl, rfl⟩⟩
  | broken hd =>
      cases h' with
      | broken hd' =>
          obtain rfl := Except.error.inj (hd.symm.trans hd')
          exact ⟨List.prefix_refl _, fun _ => ⟨rfl, rfl⟩⟩
      | refused hd' _ => cases hd.symm.trans hd'
      | taken hd' _ _ => cases hd.symm.trans hd'
  | @refused task tasks s s' m cause hd hoffer =>
      -- here the courses part, if the other one is not refused as well
      have hrefused : ¬ ∀ a ∈ (offerAll offer [.ofDefinition d task.directory m] s).1, a = .ok () := by
        simp [offerAll_cons, hoffer]
      cases h' with
      | broken hd' => cases hd.symm.trans hd'
      | refused hd' _ =>
          obtain rfl := Except.ok.inj (hd.symm.trans hd')
          exact ⟨List.prefix_refl _, fun hall => absurd hall hrefused⟩
      | taken hd' _ _ =>
          obtain rfl := Except.ok.inj (hd.symm.trans hd')
          exact ⟨List.cons_prefix_cons.2 ⟨rfl, List.nil_prefix⟩, fun hall => absurd hall hrefused⟩
  | @taken task tasks s s₁ s' m modules r hd hoffer _ ih =>
      cases h' with
      | broken hd' => cases hd.symm.trans hd'
      | refused _ hoffer' => cases (haccepts _ t).symm.trans (congrArg Prod.fst hoffer')
      | taken hd' _ hrest =>
          obtain rfl := Except.ok.inj (hd.symm.trans hd')
          obtain ⟨hbeginning, hsame⟩ := ih hrest
          refine ⟨List.cons_prefix_cons.2 ⟨rfl, hbeginning⟩, fun hall => ?_⟩
          rw [offerAll_cons, hoffer] at hall
          obtain ⟨rfl, rfl⟩ := hsame fun a ha => hall a (List.mem_cons_of_mem _ ha)
          exact ⟨rfl, rfl⟩

/-- **The answers on the way**: everything is taken, or only the last module is refused, and then the
run fails for it. -/
theorem answers (h : Course offer d fault tasks s modules r s') :
    (∀ a ∈ (offerAll offer modules s).1, a = .ok ())
      ∨ ∃ taken cause, (offerAll offer modules s).1 = taken ++ [.error cause]
        ∧ (∀ a ∈ taken, a = .ok ()) ∧ r.outcome = .error (.sink cause) := by
  induction h with
  | finish => exact .inl (by simp)
  | broken _ => exact .inl (by simp)
  | refused _ hoffer =>
      refine .inr ⟨[], _, ?_, by simp, rfl⟩
      rw [offerAll_cons, hoffer, offerAll_nil, List.nil_append]
  | taken _ hoffer _ ih =>
      rw [offerAll_cons, hoffer]
      rcases ih with hall | ⟨taken, cause, hlast, htaken, hfails⟩
      · exact .inl (List.forall_mem_cons.2 ⟨rfl, hall⟩)
      · refine .inr ⟨.ok () :: taken, cause, ?_, List.forall_mem_cons.2 ⟨rfl, htaken⟩, ?_⟩
        · rw [hlast, List.cons_append]
        · rw [after, map, hfails]
          rfl

end RunReport.Course

namespace Context

variable {ctx : Context}

/-- **A sink that refuses only cuts a run short.**  What a run offers to any sink is a beginning of
what it offers to a sink that takes everything, each module with the same name, directory, text and
so digest.  The sink is offered these and nothing else.  Either it takes all of them, and then the run
does not differ from that with the other sink; or it takes all but the last, and then the run fails
for this refusal. -/
theorem run_truncates (haccepts : ∀ m t, (accepting m t).1 = .ok ()) (ctx : Context) (scope : String)
    (d : Dialect) (offer : GeneratedModule → StateM σ (Except SinkError Unit)) (s : σ) (t : τ) :
    ctx.offered scope d offer s <+: ctx.offered scope d accepting t
    ∧ ∃ answers, offerAll offer (ctx.offered scope d offer s) s
          = (answers, (ctx.run scope d offer s).2)
      ∧ (((∀ a ∈ answers, a = .ok ())
          ∧ ctx.offered scope d offer s = ctx.offered scope d accepting t
          ∧ (ctx.run scope d offer s).1 = (ctx.run scope d accepting t).1)
        ∨ ∃ taken cause, answers = taken ++ [.error cause] ∧ (∀ a ∈ taken, a = .ok ())
          ∧ (ctx.run scope d offer s).1.outcome = .error (.sink cause)) := by
  cases htop : ctx.design.topCircuit? with
  | none =>
      -- both runs fail before anything is offered
      have hnone : ∀ {ρ : Type} (sink : GeneratedModule → StateM ρ (Except SinkError Unit)) (x : ρ),
          ctx.offered scope d sink x = [] := by
        intro ρ sink x
        rw [offered, run_of_none htop]
      rw [hnone offer s, hnone accepting t, run_of_none htop, run_of_none htop]
      exact ⟨List.prefix_refl _, [], rfl, .inl ⟨by simp, rfl, rfl⟩⟩
  | some top =>
      have hcourse := run_course htop scope d offer s
      obtain ⟨hbeginning, hsame⟩ :=
        hcourse.prefix_of_accepting haccepts (run_course htop scope d accepting t)
      refine ⟨hbeginning, _, Prod.ext rfl hcourse.offerAll_eq, ?_⟩
      rcases hcourse.answers with hall | ⟨taken, cause, hlast, htaken, hfails⟩
      · obtain ⟨hmodules, hreport⟩ := hsame hall
        refine .inl ⟨hall, hmodules, ?_⟩
        rw [run_of_top htop, run_of_top htop, hreport]
      · refine .inr ⟨taken, cause, hlast, htaken, ?_⟩
        rw [run_of_top htop, RunReport.map, hfails]
        rfl

/-- A sink that takes so many modules and refuses all others. -/
def takeSome (m : GeneratedModule) : StateM ℕ (Except SinkError Unit) := fun
  | 0 => (.error (.duplicate m.name), 0)
  | left + 1 => (.ok (), left)

/-- A circuit inside another one, which is inside the top. -/
def threeDeep : Context where
  design := {
    circuits := #[
      { name := "leaf" },
      { name := "middle", netlist := { instances := [{ kind := .instance 0 false }] } },
      { name := "main", netlist := { instances := [{ kind := .instance 1 false }] } }]
    top := 2 }

/-- The second of three modules is refused, and is the last one offered. -/
theorem run_truncates_second :
    (∀ m t, (takeAll m t).1 = .ok ())
    ∧ (threeDeep.offered "" .vhdl takeAll ()).map GeneratedModule.name = ["leaf", "middle", "main"]
    ∧ (threeDeep.offered "" .vhdl takeSome 1).map GeneratedModule.name = ["leaf", "middle"]
    ∧ threeDeep.offered "" .vhdl takeSome 1 <+: threeDeep.offered "" .vhdl takeAll ()
    ∧ ∃ cause, (threeDeep.run "" .vhdl takeSome 1).1.outcome = .error (.sink cause) := by
  have haccepts : ∀ m t, (takeAll m t).1 = .ok () := fun _ _ => rfl
  have hall : (threeDeep.offered "" .vhdl takeAll ()).map GeneratedModule.name
      = ["leaf", "middle", "main"] := by rfl
  have hsome : (threeDeep.offered "" .vhdl takeSome 1).map GeneratedModule.name
      = ["leaf", "middle"] := by rfl
  obtain ⟨hbeginning, answers, -, ⟨-, hsame, -⟩ | ⟨taken, cause, -, -, hfails⟩⟩ :=
    run_truncates haccepts threeDeep "" .vhdl takeSome 1 ()
  · rw [hsame, hall] at hsome
    cases hsome
  · exact ⟨haccepts, hall, hsome, hbeginning, cause, hfails⟩

end Context

end Netscribe
