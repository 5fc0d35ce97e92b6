import Netscribe.Command.Run
import Netscribe.Proofs.Generation.Trees

/-!
# Generating all or nothing

The command that generates finds its project, reads it and reads the design, and only then writes.  To
find and to read changes nothing, so a project that does not load leaves no file behind.

* `FileSystem.Looks` — files that are not changed by looking at them.
* `Workspace.Loads` — what makes a project load.
* `Workspace.open_eq`, `Workspace.open_eq_ok_iff` — a workspace is opened if its project loads, and
  nothing changes.
* `generate_logs` — what is written for a workspace.
* **`runArguments_generate`** — when the command succeeds, and what it writes.
-/

namespace Netscribe

variable {τ : Type} {fs : FileSystem (StateM τ)} {t : τ}

/-! ## Looking -/

/-- **Looking changes nothing**: not to ask where we are, nor what is there, nor to read it. -/
structure FileSystem.Looks (fs : FileSystem (StateM τ)) : Prop where
  currentDirectory : ∀ t, (fs.currentDirectory t).2 = t
  pathExists : ∀ path t, (fs.pathExists path t).2 = t
  isFile : ∀ path t, (fs.isFile path t).2 = t
  readText : ∀ path t, (fs.readText path t).2 = t

/-- A tree of files is not changed by looking at it. -/
lemma FileTree.looks_system : system.Looks where
  currentDirectory _ := rfl
  pathExists _ _ := rfl
  isFile _ _ := rfl
  readText _ _ := rfl

section Bind

variable {α β : Type} {x : StateM τ α}

/-- What changes nothing hands its result on. -/
lemma bind_looks (h : (x t).2 = t) (go : α → StateM τ β) : (x >>= go) t = go (x t).1 t :=
  bind_of_eq (show x t = ((x t).1, t) from Prod.ext rfl h) go

end Bind

lemma searchUpwards_looks (hlook : fs.Looks) (levels : ℕ) (directory : String) (t : τ) :
    (searchUpwards fs levels directory t).2 = t := by
  induction levels generalizing directory with
  | zero => rfl
  | succ levels ih =>
      rw [searchUpwards, bind_looks (hlook.pathExists _ t)]
      split
      · rfl
      · cases Path.parent? directory with
        | none => rfl
        | some above => exact ih above

lemma findProject_looks (hlook : fs.Looks) (config : Option String) (t : τ) :
    (findProject fs config t).2 = t := by
  cases config with
  | some path =>
      rw [findProject, bind_looks (hlook.isFile path t)]
      split <;> rfl
  | none =>
      rw [findProject, bind_looks (hlook.currentDirectory t),
        bind_looks (searchUpwards_looks hlook _ _ t)]
      cases (searchUpwards fs _ _ t).1 <;> rfl

/-! ## Loading -/

/-- The first circuit with a name stands at a position. -/
def Design.HasFirst (d : Design) (name : String) (top : ℕ) : Prop :=
  (∃ c, d.circuits[top]? = some c ∧ c.name = name)
    ∧ ∀ i < top, ∀ c, d.circuits[i]? = some c → c.name ≠ name

/-- **The workspace of a project that loads.**  The directory is found; the file of the project is read
and accepted; the file of the design that the project names is read and accepted; and the first circuit
of the name that the project gives is made the top. -/
structure Workspace.Loads (w : Workspace) (fs : FileSystem (StateM τ)) (config : Option String)
    (t : τ) : Prop where
  found : (findProject fs config t).1 = .ok w.directory
  configuration : ∃ text, (fs.readText (Path.join w.directory Project.fileName) t).1 = .ok text
    ∧ (Toml.parse? text).bind Project.ofToml? = some w.project ∧ w.project.check = .ok ()
  netlist : ∃ text design, (fs.readText (Path.join w.directory w.project.netlist) t).1 = .ok text
    ∧ (Json.parse? text).bind Design.ofJson? = some design ∧ design.validate = .ok ()
    ∧ ∃ top, design.HasFirst w.project.top top ∧ w.design = { design with top := UInt32.ofNat top }

lemma Project.load_eq_ok_iff {text : String} {p : Project} :
    load text = .ok p ↔ (Toml.parse? text).bind ofToml? = some p ∧ p.check = .ok () := by
  rw [load]
  cases (Toml.parse? text).bind ofToml? with
  | none => simp
  | some q => cases hcheck : q.check <;> grind

lemma Design.load_eq_ok_iff {text : String} {d : Design} :
    load text = .ok d ↔ (Json.parse? text).bind ofJson? = some d ∧ d.validate = .ok () := by
  rw [load]
  cases (Json.parse? text).bind ofJson? with
  | none => simp
  | some e => cases hvalid : e.validate <;> grind

/-- A name is looked for among the circuits from the first one on. -/
lemma Design.find?_eq_some_iff {d : Design} {name : String} {id : UInt32} :
    d.find? name = some id ↔ ∃ top, d.HasFirst name top ∧ UInt32.ofNat top = id := by
  simp only [find?, Option.map_eq_some_iff, Array.findIdx?_eq_some_iff_getElem]
  refine exists_congr fun top => and_congr_left fun _ => ?_
  constructor
  · rintro ⟨hlt, hname, hfirst⟩
    refine ⟨⟨_, Array.getElem?_eq_getElem hlt, beq_iff_eq.1 hname⟩, fun i hi c hc heq => ?_⟩
    obtain ⟨_, rfl⟩ := Array.getElem?_eq_some_iff.1 hc
    exact absurd (beq_iff_eq.2 heq) (hfirst i hi)
  · rintro ⟨⟨c, hc, hname⟩, hfirst⟩
    obtain ⟨hlt, rfl⟩ := Array.getElem?_eq_some_iff.1 hc
    refine ⟨hlt, beq_iff_eq.2 hname, fun i hi heq => ?_⟩
    exact hfirst i hi _ (Array.getElem?_eq_getElem (Nat.lt_trans hi hlt)) (beq_iff_eq.1 heq)

namespace Workspace

variable {name path : String}

lemma projectOf_eq_ok_iff {file : Except FileError String} {p : Project} :
    projectOf file = .ok p ↔ ∃ text, file = .ok text
      ∧ (Toml.parse? text).bind Project.ofToml? = some p ∧ p.check = .ok () := by
  cases file with
  | error cause => simp [projectOf]
  | ok text =>
      simp only [Except.ok.injEq, exists_eq_left', ← Project.load_eq_ok_iff]
      rw [projectOf]
      cases Project.load text <;> simp

lemma designOf_eq_ok_iff {file : Except FileError String} {d : Design} :
    designOf file = .ok d ↔ ∃ text, file = .ok text
      ∧ (Json.parse? text).bind Design.ofJson? = some d ∧ d.validate = .ok () := by
  cases file with
  | error cause => simp [designOf]
  | ok text =>
      simp only [Except.ok.injEq, exists_eq_left', ← Design.load_eq_ok_iff]
      rw [designOf]
      cases Design.load text with
      | error cause => cases cause <;> simp
      | ok e => simp

lemma withTop_eq_ok_iff {d d' : Design} :
    withTop name path d = .ok d' ↔ ∃ top, d.find? name = some top ∧ { d with top } = d' := by
  rw [withTop]
  cases d.find? name <;> simp

/-- **What is read**, without a change: it is told by the texts of the two files. -/
lemma read_eq (hlook : fs.Looks) (directory : String) (t : τ) :
    read fs directory t
      = ((projectOf (fs.readText (Path.join directory Project.fileName) t).1).bind fun project =>
          ((designOf (fs.readText (Path.join directory project.netlist) t).1).bind
              (withTop project.top (Path.join directory project.netlist))).map
            fun design => { directory, project, design }, t) := by
  rw [read, bind_looks (hlook.readText _ t)]
  cases projectOf (fs.readText (Path.join directory Project.fileName) t).1 with
  | error cause => rfl
  | ok project =>
      dsimp only
      rw [bind_looks (hlook.readText _ t)]
      show _ = (Except.map _ _, t)
      cases (designOf (fs.readText (Path.join directory project.netlist) t).1).bind
        (withTop project.top (Path.join directory project.netlist)) <;> rfl

/-- **What is opened**, without a change. -/
lemma open_eq (hlook : fs.Looks) (config : Option String) (t : τ) :
    «open» fs config t
      = ((findProject fs config t).1.bind fun directory => (read fs directory t).1, t) := by
  rw [«open», bind_looks (findProject_looks hlook config t)]
  cases (findProject fs config t).1 with
  | error cause => rfl
  | ok directory =>
      show read fs directory t = ((read fs directory t).1, t)
      rw [read_eq hlook]

lemma bind_eq_ok_iff {ε α β : Type} {x : Except ε α} {f : α → Except ε β} {b : β} :
    x.bind f = .ok b ↔ ∃ a, x = .ok a ∧ f a = .ok b := by
  cases x <;> simp [Except.bind]

lemma map_eq_ok_iff {ε α β : Type} {x : Except ε α} {f : α → β} {b : β} :
    x.map f = .ok b ↔ ∃ a, x = .ok a ∧ f a = b := by
  cases x <;> simp [Except.map]

/-- **A workspace is opened if its project loads.** -/
lemma open_eq_ok_iff (hlook : fs.Looks) {config : Option String} {w : Workspace} :
    («open» fs config t).1 = .ok w ↔ w.Loads fs config t := by
  rw [open_eq hlook, bind_eq_ok_iff]
  constructor
  · rintro ⟨directory, hfound, hread⟩
    rw [read_eq hlook, bind_eq_ok_iff] at hread
    obtain ⟨project, hproject, hread⟩ := hread
    obtain ⟨_, hretargeted, rfl⟩ := map_eq_ok_iff.1 hread
    obtain ⟨design, hdesign, htop⟩ := bind_eq_ok_iff.1 hretargeted
    obtain ⟨id, hid, rfl⟩ := withTop_eq_ok_iff.1 htop
    obtain ⟨top, hfirst, rfl⟩ := Design.find?_eq_some_iff.1 hid
    obtain ⟨text, htext, hparse, hvalid⟩ := designOf_eq_ok_iff.1 hdesign
    exact ⟨hfound, projectOf_eq_ok_iff.1 hproject, text, design, htext, hparse, hvalid, top,
      hfirst, rfl⟩
  · rintro ⟨hfound, hproject, text, design, htext, hparse, hvalid, top, hfirst, hw⟩
    refine ⟨w.directory, hfound, ?_⟩
    rw [read_eq hlook, bind_eq_ok_iff]
    refine ⟨w.project, projectOf_eq_ok_iff.2 hproject, map_eq_ok_iff.2 ⟨w.design, ?_, rfl⟩⟩
    refine bind_eq_ok_iff.2 ⟨design, designOf_eq_ok_iff.2 ⟨text, htext, hparse, hvalid⟩, ?_⟩
    exact withTop_eq_ok_iff.2 ⟨_, Design.find?_eq_some_iff.2 ⟨top, hfirst, rfl⟩, hw.symm⟩

/-- A project loads in one way only. -/
lemma Loads.unique (hlook : fs.Looks) {config : Option String} {w w' : Workspace}
    (h : w.Loads fs config t) (h' : w'.Loads fs config t) : w = w' :=
  Except.ok.inj (((open_eq_ok_iff hlook).2 h).symm.trans ((open_eq_ok_iff hlook).2 h'))

end Workspace

/-! ## Writing -/

section Writing

variable {log : List String → List (String × String) → τ → Prop} {made : List String}
  {written : List (String × String)} {dialect : Option Dialect} {outputDirectory : Option String}
  {format : ReportFormat}

/-- **What is written for a workspace**, and what is said of it. -/
lemma generate_logs (colour quiet verbose : Bool) (dialect : Option Dialect)
    (outputDirectory : Option String) (format : ReportFormat) {w : Workspace} {d : Dialect}
    {root : String} (hd : dialect.getD w.project.dialect = d)
    (hroot : Path.join w.directory (outputDirectory.getD w.project.outputDirectory) = root)
    (hlog : fs.Logs log root d (w.context.offered "" d takeAll ())) (ht : log made written t) :
    ∃ begun t', generate fs colour quiet verbose dialect outputDirectory format w t
        = (runOutput colour quiet verbose format root begun (w.context.run "" d takeAll ()).1, t')
      ∧ log (made ++ (w.context.offered "" d takeAll ()).map (FileOutput.directory root d))
        (written ++ (w.context.offered "" d takeAll ()).flatMap (GeneratedModule.texts root d)) t' := by
  obtain ⟨t', hrun, hlogged⟩ := Context.run_logs hlog ht
  rw [Context.flatMap_writes] at hlogged
  subst hd hroot
  refine ⟨if quiet then "" else linesText ["   Generating " ++ w.project.top ++ " ("
    ++ (dialect.getD w.project.dialect).name ++ ")"], t', ?_, hlogged⟩
  exact bind_of_eq hrun _

lemma code_runOutput (colour quiet verbose : Bool) (root begun : String) (report : RunReport Summary) :
    (runOutput colour quiet verbose format root begun report).code = runCode report := by
  cases format <;> rfl

lemma runCode_eq_zero_iff {report : RunReport Summary} :
    runCode report = 0 ↔ ∃ summary, report.outcome = .ok summary := by
  rw [runCode]
  cases report.outcome <;> simp

lemma runCode_eq_one {report : RunReport Summary} (h : runCode report ≠ 0) : runCode report = 1 := by
  cases houtcome : report.outcome <;> simp_all [runCode]

section Run

variable {i : Invocation} {onTerminal : Bool}

lemma Invocation.run_of_refused (hlook : fs.Looks) {cause : CommandError}
    (h : (Workspace.open fs i.config t).1 = .error cause) :
    i.run fs onTerminal t = (.ofError cause, t) := by
  rw [run, bind_looks (by rw [Workspace.open_eq hlook]), h]
  rfl

lemma Invocation.run_of_opened (hlook : fs.Looks) {w : Workspace}
    (h : (Workspace.open fs i.config t).1 = .ok w)
    (haction : i.action = .generate dialect outputDirectory format) :
    i.run fs onTerminal t
      = generate fs (i.color.isOn onTerminal) i.quiet i.verbose dialect outputDirectory format w t := by
  rw [run, bind_looks (by rw [Workspace.open_eq hlook]), h]
  dsimp only
  rw [haction]

end Run

/-- **To generate is to do all or nothing.**  A command line that asks for it, whatever options it gives,
ends with 0 if its project loads and the run of its design succeeds, and with 1 otherwise.  If the
project does not load, nothing changes.  If it does, the files of the modules that the run offers are
written, in order and with their texts, and nothing else is; their directory and language are those of
the options, or else of the project, and what is printed tells of that run. -/
theorem runArguments_generate (hlook : fs.Looks) {args : List String} {i : Invocation}
    (hargs : Invocation.ofArguments? args = some i)
    (haction : i.action = .generate dialect outputDirectory format) (onTerminal : Bool)
    (hlog : ∀ w : Workspace, w.Loads fs i.config t →
      fs.Logs log (Path.join w.directory (outputDirectory.getD w.project.outputDirectory))
        (dialect.getD w.project.dialect)
        (w.context.offered "" (dialect.getD w.project.dialect) takeAll ()))
    (ht : log made written t) :
    ∃ output t', runArguments fs onTerminal args t = (output, t')
      ∧ (output.code = 0 ↔ ∃ w : Workspace, w.Loads fs i.config t ∧ ∃ summary,
          (w.context.run "" (dialect.getD w.project.dialect) takeAll ()).1.outcome = .ok summary)
      ∧ (output.code ≠ 0 → output.code = 1)
      ∧ ((¬ ∃ w : Workspace, w.Loads fs i.config t) → output.code = 1 ∧ t' = t)
      ∧ ∀ w : Workspace, w.Loads fs i.config t → ∀ d root, dialect.getD w.project.dialect = d →
        Path.join w.directory (outputDirectory.getD w.project.outputDirectory) = root →
        (∃ begun, output = runOutput (i.color.isOn onTerminal) i.quiet i.verbose format root begun
          (w.context.run "" d takeAll ()).1)
        ∧ log (made ++ (w.context.offered "" d takeAll ()).map (FileOutput.directory root d))
          (written ++ (w.context.offered "" d takeAll ()).flatMap (GeneratedModule.texts root d))
          t' := by
  rw [runArguments, hargs]
  cases hopen : (Workspace.open fs i.config t).1 with
  | error cause =>
      have hnone : ¬ ∃ w : Workspace, w.Loads fs i.config t := by
        rintro ⟨w, hw⟩
        cases hopen.symm.trans ((Workspace.open_eq_ok_iff hlook).2 hw)
      refine ⟨.ofError cause, t, Invocation.run_of_refused hlook hopen, ?_, fun _ => rfl,
        fun _ => ⟨rfl, rfl⟩, fun w hw => absurd ⟨w, hw⟩ hnone⟩
      exact iff_of_false (show ¬ (1 : UInt8) = 0 by decide) fun ⟨w, hw, _⟩ => hnone ⟨w, hw⟩
  | ok w =>
      have hw := (Workspace.open_eq_ok_iff hlook).1 hopen
      obtain ⟨begun, t', hgenerate, hlogged⟩ := generate_logs (i.color.isOn onTerminal) i.quiet
        i.verbose dialect outputDirectory format rfl rfl (hlog w hw) ht
      refine ⟨_, t', (Invocation.run_of_opened hlook hopen haction).trans hgenerate, ?_, ?_,
        fun hnone => absurd ⟨w, hw⟩ hnone, ?_⟩
      · rw [code_runOutput, runCode_eq_zero_iff]
        constructor
        · rintro ⟨summary, hsummary⟩
          exact ⟨w, hw, summary, hsummary⟩
        · rintro ⟨w', hw', summary, hsummary⟩
          obtain rfl := hw.unique hlook hw'
          exact ⟨summary, hsummary⟩
      · rw [code_runOutput]
        exact runCode_eq_one
      · rintro w' hw' d root rfl rfl
        obtain rfl := hw.unique hlook hw'
        exact ⟨⟨begun, rfl⟩, hlogged⟩

end Writing

/-- A project that wants Verilog, and a design with two circuits of the name that the project gives. -/
def twoOfOneName : Workspace where
  directory := "/p"
  project := { name := "p", top := "b", dialect := .verilog, outputDirectory := "gen" }
  design := { circuits := #[{ name := "a" }, { name := "b" }, { name := "b" }], top := 1 }

/-- The file of that project. -/
def textOfProject : String :=
  "[project]\nname = \"p\"\ntop = \"b\"\n[hdl]\ndialect = \"verilog\"\noutput_dir = \"gen\"\n"

/-- The file of that design, which has another top. -/
def textOfDesign : String :=
  "\x7b\"circuits\":[\x7b\"name\":\"a\"\x7d,\x7b\"name\":\"b\"\x7d,\x7b\"name\":\"b\"\x7d],\"top\":0\x7d"

/-- Both files in one directory, and an empty one for the modules. -/
def treeOfTwo : FileTree where
  entries := [
    (["p"], .directory),
    (["p", "circa.toml"], .file textOfProject),
    (["p", "netlist.json"], .file textOfDesign),
    (["p", "gen"], .directory)]

lemma loads_twoOfOneName : twoOfOneName.Loads FileTree.system (some "/p") treeOfTwo where
  found := by decide +kernel
  configuration := ⟨textOfProject, by decide +kernel, by decide +kernel, by decide⟩
  netlist := by
    refine ⟨textOfDesign, { twoOfOneName.design with top := 0 }, by decide +kernel,
      by decide +kernel, by decide, 1, ⟨⟨_, rfl, rfl⟩, fun i hi c hc => ?_⟩, rfl⟩
    obtain rfl : i = 0 := Nat.lt_one_iff.1 hi
    obtain rfl := Option.some.inj hc
    decide

lemma room_treeOfTwo : treeOfTwo.Room "/p/gen" .vhdl ["p", "gen"]
    (twoOfOneName.context.offered "" .vhdl takeAll ()) := by
  have hfree : ∀ m ∈ twoOfOneName.context.offered "" .vhdl takeAll (),
      treeOfTwo.entry? (["p", "gen"] ++ [Dialect.vhdl.name] ++ [m.directory]) = none := by
    decide +kernel
  have hlanguage : treeOfTwo.entry? (["p", "gen"] ++ [Dialect.vhdl.name]) = none := by decide +kernel
  have hfiles : ∀ m ∈ twoOfOneName.context.offered "" .vhdl takeAll (), ∀ f ∈ m.files .vhdl,
      treeOfTwo.entry? (FileTree.filePlace ["p", "gen"] .vhdl m f.1) ≠ some .directory
        ∧ f.1.utf8ByteSize ≤ FileTree.maxNameBytes
        ∧ FileTree.Fits (Path.join (FileOutput.directory "/p/gen" .vhdl m) f.1) := by decide +kernel
  refine ⟨by decide +kernel, fun text => ?_, fun m hm text => ?_,
    fun m hm f hf => (hfiles m hm f hf).1, fun m hm f hf => (hfiles m hm f hf).2⟩
  · rw [hlanguage]
    exact nofun
  · rw [hfree m hm]
    exact nofun

/-- The language of the option and the directory of the project, with the second circuit of the design
that does not name it as its top. -/
theorem runArguments_generate_twoOfOneName :
    ∃ output tree,
      runArguments FileTree.system false ["generate", "--config=/p", "-d", "vhdl"] treeOfTwo
        = (output, tree)
      ∧ output.code = 0
      ∧ tree.read "/p/gen/vhdl/circuit/b_entity.vhd"
        = .ok "LIBRARY ieee;\nUSE ieee.std_logic_1164.all;\n\nENTITY b IS\nEND ENTITY b;\n"
      ∧ tree.read "/p/gen/vhdl/circuit/b_behavior.vhd"
        = .ok "ARCHITECTURE platformIndependent OF b IS\n\nBEGIN\n\nEND platformIndependent;\n" := by
  have hlogs : ∀ w : Workspace, w.Loads FileTree.system (some "/p") treeOfTwo →
      FileTree.system.Logs (treeOfTwo.Shows "/p/gen" .vhdl ["p", "gen"]
        (twoOfOneName.context.offered "" .vhdl takeAll ())) (Path.join w.directory
        w.project.outputDirectory) .vhdl (w.context.offered "" .vhdl takeAll ()) := by
    intro w hw
    obtain rfl := hw.unique FileTree.looks_system loads_twoOfOneName
    exact FileTree.logs_offered treeOfTwo "/p/gen" ["p", "gen"] twoOfOneName.context "" .vhdl
  obtain ⟨output, tree, hrun, hcode, -, -, hwrites⟩ := runArguments_generate
    (i := ⟨false, false, .auto, some "/p", .generate (some .vhdl) none .text⟩)
    FileTree.looks_system
    (show Invocation.ofArguments? ["generate", "--config=/p", "-d", "vhdl"] = _ by decide +kernel)
    rfl false hlogs room_treeOfTwo.shows
  obtain ⟨-, hshows⟩ := hwrites twoOfOneName loads_twoOfOneName .vhdl "/p/gen" rfl (by decide)
  have hread := hshows.read fun m hm => FileTree.isPlaced_of_mem_offered hm
  exact ⟨output, tree, hrun, hcode.2 ⟨twoOfOneName, loads_twoOfOneName, _, rfl⟩,
    hread (_, _) (by decide +kernel), hread (_, _) (by decide +kernel)⟩

end Netscribe
