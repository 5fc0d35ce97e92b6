import Netscribe.Proofs.Generation.Files
import Netscribe.Proofs.Generation.Refusal
import Netscribe.Proofs.Generation.Storing

/-!
# Runs that write files

A run does the same to a sink that keeps its own state as to one that keeps it together with the
files.  So a run that writes files offers what any run offers; and where files can be written, it
writes all of that, each module into a directory that its origin fixes.

* `Translation` — one kind of effect told as another, with `Context.run_translate`.
* `Plan.Placed` — every planned definition has the directory of its origin.
* `FileSystem.Logs` — files that can be written, and a log of what is.
* `FileOutput.offer_logs`, `FileOutput.offerAll_logs`, `Context.run_logs` — what is written of one
  module, of many, and in a run.
* **`Context.run_writes`** — what a run writes.
-/

namespace Netscribe

/-! ## Translations -/

/-- **A translation** of one kind of effect into another. -/
structure Translation (m n : Type → Type) [Monad m] [Monad n] where
  apply : {α : Type} → m α → n α
  apply_pure : ∀ {α : Type} (a : α), apply (pure a : m α) = pure a
  apply_bind : ∀ {α β : Type} (x : m α) (f : α → m β),
    apply (x >>= f) = apply x >>= fun a => apply (f a)

section Translations

variable {m n : Type → Type} [Monad m] [Monad n] (F : Translation m n)

/-- **Tasks are carried out the same in a translation.** -/
lemma RunReport.ofTasks_translate (offer : GeneratedModule → m (Except SinkError Unit)) (d : Dialect)
    (fault : Option (List String × Fault)) (tasks : List Task) :
    F.apply (ofTasks offer d fault tasks) = ofTasks (fun g => F.apply (offer g)) d fault tasks := by
  induction tasks with
  | nil => exact F.apply_pure _
  | cons task tasks ih =>
      rw [ofTasks, ofTasks]
      cases task.definition.outcome with
      | error fault => exact F.apply_pure _
      | ok definition =>
          refine (F.apply_bind _ _).trans (congrArg _ (funext fun answer => ?_))
          cases answer with
          | error cause => exact F.apply_pure _
          | ok taken =>
              refine (F.apply_bind _ _).trans ?_
              rw [ih]
              exact congrArg _ (funext fun rest => F.apply_pure _)

/-- **A run is the same in a translation.** -/
theorem Context.run_translate (ctx : Context) (scope : String) (d : Dialect)
    (offer : GeneratedModule → m (Except SinkError Unit)) :
    F.apply (ctx.run scope d offer) = ctx.run scope d fun g => F.apply (offer g) := by
  rw [run, run]
  cases ctx.top.outcome with
  | error fault => exact F.apply_pure _
  | ok top =>
      refine (F.apply_bind _ _).trans ?_
      rw [RunReport.ofTasks_translate]
      exact congrArg _ (funext fun report => F.apply_pure _)

end Translations

/-- A state beside another one is a state of both. -/
def besides (σ τ : Type) : Translation (StateT σ (StateM τ)) (StateM (σ × τ)) where
  apply x := fun s => ((x s.1 s.2).1.1, (x s.1 s.2).1.2, (x s.1 s.2).2)
  apply_pure _ := rfl
  apply_bind _ _ := rfl

/-! ## Directories -/

namespace Plan

/-- **Every planned definition has the directory of its origin.** -/
def Placed (p : Plan) : Prop :=
  ∀ t ∈ p.tasks, t.directory = t.origin.directory

lemma placed_empty : Placed {} :=
  fun _ h => nomatch h

lemma kept_placed : Kept Placed where
  noGenerator _ _ _ h := h
  noCircuit _ _ _ h := h
  mark _ h := h
  add name task htask h := by
    intro t ht
    rcases List.mem_append.1 ht with ht | ht
    · exact h t ht
    · rwa [List.mem_singleton.1 ht]

end Plan

namespace Context

variable {ctx : Context} {σ : Type} {offer : GeneratedModule → StateM σ (Except SinkError Unit)}
  {scope : String} {d : Dialect} {s : σ} {m : GeneratedModule}

/-- Definitions have words for names. -/
lemma isWord_nameOf (ctx : Context) (o : Origin) : IsWord (ctx.nameOf o) := by
  cases o with
  | circuit id gated =>
      rw [nameOf.eq_def]
      dsimp only
      split
      · exact (IsWord.ofLabel _).append (by cases gated <;> decide)
      · decide
  | primitive p =>
      cases p with
      | gate g =>
          have hgate : IsWord g.name := by cases g <;> decide
          exact hgate.append (by decide)
      | multiplexer width => exact IsWord.append (by decide) (IsWord.natural _)

/-- **What is offered has its place**: one of the fixed directories, a word for a name, and two parts
that are not empty. -/
lemma offered_placed (hm : m ∈ ctx.offered scope d offer s) :
    m.directory ∈ ["circuit", "gates", "plexers"] ∧ IsWord m.name
      ∧ m.interface ≠ [] ∧ m.body ≠ [] := by
  cases htop : ctx.design.topCircuit? with
  | none =>
      rw [offered, run_of_none htop] at hm
      cases hm
  | some top =>
      obtain ⟨t, ht, definition, hok, rfl⟩ := (run_course htop scope d offer s).exists_task m hm
      have hname := name_of_definitionOf? ((plan_tidy htop).made t ht).2 hok
      have hplaced : (ctx.plan top).Placed :=
        Plan.visit_keeps Plan.kept_placed _ _ _ _ _ _ Plan.placed_empty
      refine ⟨?_, ?_, definition.interface_ne_nil d, definition.body_ne_nil d⟩
      · exact hplaced t ht ▸ t.origin.directory_mem
      · show IsWord definition.name
        rw [hname]
        exact isWord_nameOf ctx t.origin

/-- The directories of what is offered are names in a path, and its own names are words. -/
lemma offered_isName (ctx : Context) (scope : String) (d : Dialect)
    (offer : GeneratedModule → StateM σ (Except SinkError Unit)) (s : σ) :
    ∀ m ∈ ctx.offered scope d offer s, Path.IsName m.directory ∧ IsWord m.name := by
  intro m hm
  obtain ⟨hdirectory, hname, -⟩ := offered_placed hm
  have hnames : ∀ directory ∈ ["circuit", "gates", "plexers"], Path.IsName directory := by decide
  exact ⟨hnames _ hdirectory, hname⟩

/-- What is written of what is offered, told by the texts that it has to be. -/
lemma flatMap_writes (ctx : Context) (scope : String) (d : Dialect)
    (offer : GeneratedModule → StateM σ (Except SinkError Unit)) (s : σ) (root : String) :
    (ctx.offered scope d offer s).flatMap (FileOutput.writes root d)
      = (ctx.offered scope d offer s).flatMap (GeneratedModule.texts root d) := by
  refine List.flatMap_congr fun m hm => ?_
  obtain ⟨hdirectory, hname⟩ := ctx.offered_isName scope d offer s m hm
  exact FileOutput.writes_eq_texts root d hdirectory hname

end Context

/-! ## Files that can be written -/

/-- **Files that modules can be written to, with a log.**  `log made written t` says which directories
have been made and which files written, in order, when the files are as in `t`: a log may be kept beside
the files, or be what the files show.  Wherever it says so, each directory of the modules can be made,
and once it is, each of their files can be written there; what was done comes last in the log. -/
structure FileSystem.Logs {τ : Type} (fs : FileSystem (StateM τ))
    (log : List String → List (String × String) → τ → Prop) (root : String) (d : Dialect)
    (modules : List GeneratedModule) : Prop where
  makes : ∀ m ∈ modules, ∀ made written t, log made written t →
    ∃ t', fs.createDirectories (FileOutput.directory root d m) t = (.ok (), t')
      ∧ log (made ++ [FileOutput.directory root d m]) written t'
  writes : ∀ m ∈ modules, ∀ file ∈ FileOutput.writes root d m, ∀ made written t,
    FileOutput.directory root d m ∈ made → log made written t →
    ∃ t', fs.writeText file.1 file.2 t = (.ok (), t') ∧ log made (written ++ [file]) t'

lemma FileSystem.Logs.mono {τ : Type} {fs : FileSystem (StateM τ)}
    {log : List String → List (String × String) → τ → Prop} {root : String} {d : Dialect}
    {modules modules' : List GeneratedModule} (h : fs.Logs log root d modules)
    (hsubset : modules' ⊆ modules) : fs.Logs log root d modules' :=
  ⟨fun m hm => h.makes m (hsubset hm), fun m hm => h.writes m (hsubset hm)⟩

/-- An effect on the files is passed on. -/
lemma liftM_bind {σ τ α β : Type} {x : StateM τ α} {t t' : τ} {a : α} (h : x t = (a, t'))
    (go : α → StateT σ (StateM τ) β) (s : σ) :
    ((liftM x : StateT σ (StateM τ) α) >>= go) s t = go a s t' := by
  show go (x t).1 s (x t).2 = go a s t'
  rw [h]

namespace FileOutput

variable {τ : Type} {fs : FileSystem (StateM τ)}
  {log : List String → List (String × String) → τ → Prop} {root : String} {d : Dialect}
  {made : List String} {written : List (String × String)} {t : τ}

lemma writeFiles_logs {directory : String} {files : List (String × List String)}
    (hwrites : ∀ f ∈ files, ∀ written t, log made written t →
      ∃ t', fs.writeText (Path.join directory f.1) (contents f.2) t = (.ok (), t')
        ∧ log made (written ++ [(Path.join directory f.1, contents f.2)]) t')
    (paths : List String) (ht : log made written t) :
    ∃ t', writeFiles fs directory files paths t
        = ((.ok (), paths ++ files.map fun f => Path.join directory f.1), t')
      ∧ log made (written ++ files.map fun f => (Path.join directory f.1, contents f.2)) t' := by
  induction files generalizing paths written t with
  | nil => exact ⟨t, by rw [List.map_nil, List.append_nil]; rfl, by simpa using ht⟩
  | cons file files ih =>
      obtain ⟨name, lines⟩ := file
      obtain ⟨hfirst, hrest⟩ := List.forall_mem_cons.1 hwrites
      obtain ⟨t₁, hwrite, ht₁⟩ := hfirst written t ht
      obtain ⟨t', hfiles, ht'⟩ := ih hrest (paths ++ [Path.join directory name]) ht₁
      refine ⟨t', ?_, ?_⟩
      · have hstep : writeFiles fs directory ((name, lines) :: files) paths t
            = writeFiles fs directory files (paths ++ [Path.join directory name]) t₁ := by
          rw [writeFiles]
          exact liftM_bind hwrite _ paths
        rw [hstep, hfiles, List.map_cons, List.append_assoc, List.singleton_append]
      · rwa [List.append_assoc, List.singleton_append] at ht'

/-- **What is written of one module**, and remembered. -/
lemma offer_logs {modules : List GeneratedModule} (hlog : fs.Logs log root d modules)
    {m : GeneratedModule} (hm : m ∈ modules) (paths : List String) (ht : log made written t) :
    ∃ t', offer fs root d m paths t = ((.ok (), paths ++ (writes root d m).map Prod.fst), t')
      ∧ log (made ++ [directory root d m]) (written ++ writes root d m) t' := by
  obtain ⟨t₁, hmake, ht₁⟩ := hlog.makes m hm made written t ht
  have hwrites : ∀ f ∈ m.files d, ∀ written t, log (made ++ [directory root d m]) written t →
      ∃ t', fs.writeText (Path.join (directory root d m) f.1) (contents f.2) t = (.ok (), t')
        ∧ log (made ++ [directory root d m])
          (written ++ [(Path.join (directory root d m) f.1, contents f.2)]) t' :=
    fun f hf written t => hlog.writes m hm _ (List.mem_map_of_mem hf) _ written t
      (List.mem_append_right _ (List.mem_singleton_self _))
  obtain ⟨t', hfiles, ht'⟩ := writeFiles_logs hwrites paths ht₁
  refine ⟨t', ?_, ht'⟩
  have hstep : offer fs root d m paths t = writeFiles fs (directory root d m) (m.files d) paths t₁ := by
    rw [offer]
    exact liftM_bind hmake _ paths
  rw [hstep, hfiles, writes, List.map_map]
  rfl

/-- The sink that writes files, with its state and that of the files together. -/
def besideFiles (fs : FileSystem (StateM τ)) (root : String) (d : Dialect) (m : GeneratedModule) :
    StateM (List String × τ) (Except SinkError Unit) :=
  (besides (List String) τ).apply (offer fs root d m)

/-- **What is written of many modules**, one after the other; none of them is refused. -/
lemma offerAll_logs {modules : List GeneratedModule} (hlog : fs.Logs log root d modules)
    (paths : List String) (ht : log made written t) :
    (∀ a ∈ (offerAll (besideFiles fs root d) modules (paths, t)).1, a = .ok ())
    ∧ ∃ t', (offerAll (besideFiles fs root d) modules (paths, t)).2
          = (paths ++ (modules.flatMap (writes root d)).map Prod.fst, t')
        ∧ log (made ++ modules.map (directory root d))
          (written ++ modules.flatMap (writes root d)) t' := by
  induction modules generalizing paths made written t with
  | nil => exact ⟨by simp, t, by simp, by simpa using ht⟩
  | cons m modules ih =>
      obtain ⟨t₁, hoffer, ht₁⟩ := offer_logs hlog List.mem_cons_self paths ht
      obtain ⟨hanswers, t', hstate, ht'⟩ := ih (hlog.mono (List.subset_cons_self _ _))
        (paths ++ (writes root d m).map Prod.fst) ht₁
      have hfirst : besideFiles fs root d m (paths, t)
          = (.ok (), paths ++ (writes root d m).map Prod.fst, t₁) := by
        show ((offer fs root d m paths t).1.1, (offer fs root d m paths t).1.2,
          (offer fs root d m paths t).2) = _
        rw [hoffer]
      rw [offerAll_cons, hfirst]
      refine ⟨List.forall_mem_cons.2 ⟨rfl, hanswers⟩, t', ?_, ?_⟩
      · rw [hstate, List.flatMap_cons, List.map_append, List.append_assoc]
      · rwa [List.append_assoc, List.append_assoc, List.singleton_append] at ht'

end FileOutput

/-! ## Runs -/

namespace Context

variable {ctx : Context} {σ : Type} {offer : GeneratedModule → StateM σ (Except SinkError Unit)}
  {scope : String} {d : Dialect} {s : σ}

/-- A sink is left as it is after all that was offered. -/
lemma offerAll_offered (ctx : Context) (scope : String) (d : Dialect)
    (offer : GeneratedModule → StateM σ (Except SinkError Unit)) (s : σ) :
    (offerAll offer (ctx.offered scope d offer s) s).2 = (ctx.run scope d offer s).2 := by
  cases htop : ctx.design.topCircuit? with
  | none =>
      rw [offered, run_of_none htop, run_of_none htop]
      rfl
  | some top => exact (run_course htop scope d offer s).offerAll_eq

/-- **A sink is offered what one that takes everything is**, or the beginning of it; and if it refuses
nothing, the two might as well be one. -/
lemma offered_prefix (ctx : Context) (scope : String) (d : Dialect)
    (offer : GeneratedModule → StateM σ (Except SinkError Unit)) (s : σ) :
    ctx.offered scope d offer s <+: ctx.offered scope d takeAll ()
      ∧ ((∀ a ∈ (offerAll offer (ctx.offered scope d offer s) s).1, a = .ok ()) →
        ctx.offered scope d offer s = ctx.offered scope d takeAll ()
          ∧ (ctx.run scope d offer s).1 = (ctx.run scope d takeAll ()).1) := by
  cases htop : ctx.design.topCircuit? with
  | none =>
      rw [offered, offered, run_of_none htop, run_of_none htop, run_of_none htop, run_of_none htop]
      exact ⟨List.prefix_refl _, fun _ => ⟨rfl, rfl⟩⟩
  | some top =>
      obtain ⟨hbeginning, hboth⟩ := (run_course htop scope d offer s).prefix_of_accepting
        (fun _ _ => rfl) (run_course htop scope d takeAll ())
      refine ⟨hbeginning, fun htaken => ?_⟩
      obtain ⟨hmodules, hreport⟩ := hboth htaken
      refine ⟨hmodules, ?_⟩
      rw [run_of_top htop, run_of_top htop, hreport]

variable {τ : Type} {fs : FileSystem (StateM τ)}
  {log : List String → List (String × String) → τ → Prop} {root : String} {made : List String}
  {written : List (String × String)} {t : τ}

/-- **A run into files** tells what it tells a sink that takes everything, and leaves in the log, and in
the list of paths, what it offers. -/
lemma run_logs (hlog : fs.Logs log root d (ctx.offered scope d takeAll ()))
    (ht : log made written t) :
    ∃ t', ((ctx.run scope d (FileOutput.offer fs root d)).run []).run t
        = (((ctx.run scope d takeAll ()).1,
          ((ctx.offered scope d takeAll ()).flatMap (FileOutput.writes root d)).map Prod.fst), t')
      ∧ log (made ++ (ctx.offered scope d takeAll ()).map (FileOutput.directory root d))
        (written ++ (ctx.offered scope d takeAll ()).flatMap (FileOutput.writes root d)) t' := by
  obtain ⟨hbeginning, hsame⟩ :=
    ctx.offered_prefix scope d (FileOutput.besideFiles fs root d) ([], t)
  obtain ⟨hanswers, t', hstate, ht'⟩ :=
    FileOutput.offerAll_logs (hlog.mono hbeginning.subset) [] ht
  obtain ⟨hmodules, hreport⟩ := hsame hanswers
  rw [offerAll_offered, hmodules, List.nil_append] at hstate
  rw [hmodules] at ht'
  refine ⟨t', ?_, ht'⟩
  have hrun := run_translate (besides (List String) τ) ctx scope d (FileOutput.offer fs root d)
  have hboth : (besides (List String) τ).apply (ctx.run scope d (FileOutput.offer fs root d)) ([], t)
      = ((ctx.run scope d takeAll ()).1,
        ((ctx.offered scope d takeAll ()).flatMap (FileOutput.writes root d)).map Prod.fst, t') := by
    rw [hrun]
    exact Prod.ext hreport hstate
  obtain ⟨hfirst, hrest⟩ := Prod.mk.inj hboth
  obtain ⟨hwritten, hfinal⟩ := Prod.mk.inj hrest
  exact Prod.ext (Prod.ext hfirst hwritten) hfinal

/-- **What a run writes.**  Where its files can be written, a run that starts with no files remembered
writes all modules that it offers, in order, and tells what it tells a sink that takes everything.  It
writes no path twice.  Each path leads from the root to the directory of the language, to one of three
fixed directories and to a file whose name is a word up to its extension, whatever names the design
has.  The files of a module hold, one after the other, the text that its digest is made of, with a line
feed at the end. -/
theorem run_writes (hlog : fs.Logs log root d (ctx.offered scope d takeAll ()))
    (ht : log made written t) :
    ∃ report writes t',
      ((ctx.run scope d (FileOutput.offer fs root d)).run []).run t
        = ((report, writes.map Prod.fst), t')
      ∧ log (made ++ (ctx.offered scope d takeAll ()).map (FileOutput.directory root d))
        (written ++ writes) t'
      ∧ report = (ctx.run scope d takeAll ()).1
      ∧ writes = (ctx.offered scope d takeAll ()).flatMap (FileOutput.writes root d)
      ∧ (writes.map Prod.fst).Nodup
      ∧ (∀ write ∈ writes, ∃ directory ∈ ["circuit", "gates", "plexers"], ∃ stem, IsWord stem
        ∧ write.1 = Path.join root d.name ++ "/" ++ directory ++ "/" ++ (stem ++ d.extension))
      ∧ ∀ m ∈ ctx.offered scope d takeAll (), ∃ text,
        String.join ((FileOutput.writes root d m).map Prod.snd) = text ++ "\n"
        ∧ text = String.intercalate "\n" (m.interface ++ m.body)
        ∧ m.digest = .ofBytes text.toUTF8 := by
  obtain ⟨t', hrun, ht'⟩ := run_logs hlog ht
  have hplaced := ctx.offered_isName scope d takeAll ()
  refine ⟨_, _, t', hrun, ht', rfl, rfl, ?_, ?_, ?_⟩
  · exact FileOutput.paths_nodup hplaced (ctx.offered_names_nodup scope d takeAll ())
  · intro write hwrite
    obtain ⟨m, hm, hwrite⟩ := List.mem_flatMap.1 hwrite
    have hpath := List.mem_map_of_mem (f := Prod.fst) hwrite
    rw [FileOutput.map_fst_writes] at hpath
    obtain ⟨part, hpart, hpath⟩ := List.mem_map.1 hpath
    have hstem := (hplaced m hm).2.append (Dialect.isWord_of_mem_parts hpart)
    refine ⟨m.directory, (offered_placed hm).1, m.name ++ part, hstem, ?_⟩
    rw [← hpath, FileOutput.path_eq root (hplaced m hm).1 hstem]
  · intro m hm
    obtain ⟨-, -, hinterface, hbody⟩ := offered_placed hm
    exact ⟨_, FileOutput.join_writes root hinterface hbody, rfl, rfl⟩

/-- Files that are nothing but a log. -/
def logOnly : FileSystem (StateM (List (String × String))) where
  currentDirectory := return "/"
  pathExists _ := return false
  isFile _ := return false
  isDirectory _ := return false
  readText _ := return .error .notFound
  makeDirectory _ := return .ok ()
  writeText path text := fun log => (.ok (), log ++ [(path, text)])

/-- What such files are is what has been written. -/
def IsLog (_ : List String) (written log : List (String × String)) : Prop :=
  written = log

lemma logs_logOnly (root : String) (d : Dialect) (modules : List GeneratedModule) :
    logOnly.Logs IsLog root d modules where
  makes m _ made written log h := by
    rw [FileSystem.createDirectories, FileSystem.createWithin]
    split <;> exact ⟨_, rfl, h⟩
  writes _ _ file _ _ _ _ _ h := ⟨_, rfl, congrArg (· ++ [file]) h⟩

/-- A circuit whose name leads elsewhere, used in both variants beside a multiplexer. -/
def namedAsPaths : Context where
  design := {
    circuits := #[
      { name := "../a b" },
      { name := "/etc/é"
        netlist := {
          components := [
            { kind := .primitive "Multiplexer" .empty
              terminals := [⟨.output, none, [none]⟩, ⟨.input, none, [none]⟩, ⟨.input, none, [none]⟩,
                ⟨.input, none, [none]⟩] }]
          instances := [{ kind := .instance 0 false }, { kind := .instance 0 true }] } }]
    top := 1 }

/-- Names that lead elsewhere do not lead out of the directories. -/
theorem run_writes_namedAsPaths :
    logOnly.Logs IsLog "out" .vhdl (namedAsPaths.offered "" .vhdl takeAll ())
    ∧ ∃ report paths log,
      ((namedAsPaths.run "" .vhdl (FileOutput.offer logOnly "out" .vhdl)).run []).run []
        = ((report, paths), log)
      ∧ (∃ summary, report.outcome = .ok summary)
      ∧ log.map Prod.fst = paths
      ∧ paths = [
        "out/vhdl/plexers/Multiplexer_1_entity.vhd", "out/vhdl/plexers/Multiplexer_1_behavior.vhd",
        "out/vhdl/circuit/___a_b_entity.vhd", "out/vhdl/circuit/___a_b_behavior.vhd",
        "out/vhdl/circuit/___a_b_gated_entity.vhd", "out/vhdl/circuit/___a_b_gated_behavior.vhd",
        "out/vhdl/circuit/_etc___entity.vhd", "out/vhdl/circuit/_etc___behavior.vhd"] := by
  have hlogs := logs_logOnly "out" .vhdl (namedAsPaths.offered "" .vhdl takeAll ())
  have hstart : IsLog [] [] [] := rfl
  obtain ⟨report, writes, log, hrun, hlog, hreport, hwrites, -⟩ := run_writes hlogs hstart
  obtain rfl : writes = log := hlog
  have hok : ∃ summary, (namedAsPaths.run "" .vhdl takeAll ()).1.outcome = .ok summary := ⟨_, rfl⟩
  rw [← hreport] at hok
  refine ⟨hlogs, report, _, writes, hrun, hok, rfl, ?_⟩
  rw [hwrites]
  rfl

end Context

end Netscribe
