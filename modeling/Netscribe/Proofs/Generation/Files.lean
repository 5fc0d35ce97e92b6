import Mathlib.Data.List.Nodup
import Mathlib.Tactic.Common
import Netscribe.Generation.FileOutput
import Netscribe.Proofs.Files.Path
import Netscribe.Proofs.Text.Identifier

/-!
# Files of a module

A module is written into one directory.  If its name is a word, so are the names of its files up to
their extension, and they tell the name of the module and the part of it that they hold.  What its
files hold, one after the other, is its text with a line feed at the end.

* `Dialect.parts`, `Dialect.extension` — how files are named, with `Dialect.file_injective`.
* `FileOutput.writes` — the paths of the files of a module and what they hold.
* `GeneratedModule.texts` — what these have to be, with `FileOutput.writes_eq_texts`.
* `FileOutput.path_injective`, `FileOutput.paths_nodup` — a path tells what is written to it.
* **`FileOutput.join_writes`** — the files of a module hold its text.
-/

namespace Netscribe

/-! ## Names of files -/

namespace Dialect

variable {d : Dialect} {name name' part part' : String}

/-- What the files of a definition end in. -/
def extension : Dialect → String
  | .vhdl => ".vhd"
  | .verilog => ".v"

/-- The parts that a definition is stored in, one file for each. -/
def parts : Dialect → List String
  | .vhdl => ["_entity", "_behavior"]
  | .verilog => [""]

lemma isName_name (d : Dialect) : Path.IsName d.name := by
  cases d <;> decide

lemma isWord_of_mem_parts (h : part ∈ d.parts) : IsWord part := by
  revert part
  cases d <;> decide

lemma map_fst_moduleFiles (d : Dialect) (name : String) (interface body : List String) :
    (d.moduleFiles name interface body).map Prod.fst
      = d.parts.map fun part => name ++ part ++ d.extension := by
  cases d <;> simp [moduleFiles, parts, extension, String.append_assoc]

lemma parts_nodup (d : Dialect) : d.parts.Nodup := by
  cases d <;> decide

/-- **A file tells the name of its definition and the part.** -/
lemma file_injective (hpart : part ∈ d.parts) (hpart' : part' ∈ d.parts)
    (h : name ++ part ++ d.extension = name' ++ part' ++ d.extension) :
    name = name' ∧ part = part' := by
  rw [String.append_left_inj] at h
  have hsame : part = part' := by
    cases d with
    | vhdl =>
        have hlast := congrArg (fun s : String => s.toList.getLast?) h
        simp only [parts, List.mem_cons, List.not_mem_nil, or_false] at hpart hpart'
        rcases hpart with rfl | rfl <;> rcases hpart' with rfl | rfl <;> simp at hlast ⊢
    | verilog => rw [List.mem_singleton.1 hpart, List.mem_singleton.1 hpart']
  subst hsame
  exact ⟨(String.append_left_inj _).1 h, rfl⟩

end Dialect

lemma IsWord.not_mem_slash {s : String} (h : IsWord s) : '/' ∉ s.toList :=
  fun hmem => absurd (h _ hmem) (by decide)

/-- A file of a word is a name. -/
lemma IsWord.isName_file {s : String} (h : IsWord s) (d : Dialect) :
    Path.IsName (s ++ d.extension) := by
  refine ⟨fun hempty => ?_, fun hmem => ?_⟩
  · have hextension := (String.append_eq_empty_iff.1 hempty).2
    revert hextension
    cases d <;> decide
  · rw [String.toList_append, List.mem_append] at hmem
    refine hmem.elim h.not_mem_slash ?_
    cases d <;> decide

/-! ## What the files hold -/

namespace FileOutput

/-- The lines of two parts, one after the other. -/
lemma contents_append {lines lines' : List String} (h : lines ≠ []) (h' : lines' ≠ []) :
    contents lines ++ contents lines' = contents (lines ++ lines') := by
  rw [contents, contents, contents, String.intercalate_append_of_ne_nil h h']
  simp only [String.append_assoc]

lemma join_contents_moduleFiles (d : Dialect) (name : String) {interface body : List String}
    (hinterface : interface ≠ []) (hbody : body ≠ []) :
    String.join ((d.moduleFiles name interface body).map fun f => contents f.2)
      = contents (interface ++ body) := by
  cases d with
  | vhdl =>
      rw [← contents_append hinterface hbody]
      simp [Dialect.moduleFiles]
  | verilog => simp [Dialect.moduleFiles]

end FileOutput

namespace Definition

lemma interface_ne_nil (d : Dialect) (m : Definition) : m.interface d ≠ [] := by
  cases d with
  | vhdl => simp [interface, Dialect.interface]
  | verilog =>
      rw [interface, Dialect.interface]
      split <;> simp

lemma body_ne_nil (d : Dialect) (m : Definition) : m.body d ≠ [] := by
  cases d <;> simp [body, Dialect.behavior]

end Definition

/-! ## What a module writes -/

/-- **What the files of a module have to be**: in VHDL its two parts stand in a file each, in Verilog one
after the other in a single file.  There is a line feed between lines, and one at the end. -/
def GeneratedModule.texts (root : String) (d : Dialect) (m : GeneratedModule) :
    List (String × String) :=
  let stem := Path.join root d.name ++ "/" ++ m.directory ++ "/" ++ m.name
  match d with
  | .vhdl => [(stem ++ "_entity.vhd", String.intercalate "\n" m.interface ++ "\n"),
      (stem ++ "_behavior.vhd", String.intercalate "\n" m.body ++ "\n")]
  | .verilog => [(stem ++ ".v", String.intercalate "\n" (m.interface ++ m.body) ++ "\n")]

namespace FileOutput

variable {root : String} {d : Dialect} {m m' : GeneratedModule}

/-- **The paths of the files of a module, and what they hold.** -/
def writes (root : String) (d : Dialect) (m : GeneratedModule) : List (String × String) :=
  (m.files d).map fun f => (Path.join (directory root d m) f.1, contents f.2)

lemma map_fst_writes (root : String) (d : Dialect) (m : GeneratedModule) :
    (writes root d m).map Prod.fst = d.parts.map fun part =>
      Path.join (directory root d m) (m.name ++ part ++ d.extension) := by
  have hfiles := d.map_fst_moduleFiles m.name m.interface m.body
  rw [writes, List.map_map, GeneratedModule.files]
  have hmap := congrArg (List.map (Path.join (directory root d m))) hfiles
  rw [List.map_map, List.map_map] at hmap
  exact hmap

/-- **A file stands where it belongs**: below the root, in the directory of the language and of its
module. -/
lemma path_eq (root : String) (hdirectory : Path.IsName m.directory) {stem : String}
    (hstem : IsWord stem) : Path.join (directory root d m) (stem ++ d.extension)
      = Path.join root d.name ++ "/" ++ m.directory ++ "/" ++ (stem ++ d.extension) := by
  rw [directory, Path.join_join_eq hdirectory (hstem.isName_file d),
    Path.join_join_eq d.isName_name hdirectory]

/-- **The files of a module are what they have to be.** -/
theorem writes_eq_texts (root : String) (d : Dialect) (hdirectory : Path.IsName m.directory)
    (hname : IsWord m.name) : writes root d m = m.texts root d := by
  have hpath : ∀ part, IsWord part → Path.join (directory root d m) (m.name ++ part ++ d.extension)
      = Path.join root d.name ++ "/" ++ m.directory ++ "/" ++ m.name ++ (part ++ d.extension) := by
    intro part hpart
    rw [path_eq root hdirectory (hname.append hpart)]
    simp only [String.append_assoc]
  cases d with
  | vhdl =>
      have hentity := hpath "_entity" (by decide)
      have hbehavior := hpath "_behavior" (by decide)
      rw [String.append_assoc] at hentity hbehavior
      exact congrArg₂ (fun a b => [(a, contents m.interface), (b, contents m.body)]) hentity hbehavior
  | verilog =>
      have hfile := hpath "" (by decide)
      rw [String.append_empty, String.empty_append] at hfile
      exact congrArg (fun a => [(a, contents (m.interface ++ m.body))]) hfile

/-- **A path tells the name of the module and the part** that it holds. -/
lemma path_injective {part part' : String} (hdirectory : Path.IsName m.directory)
    (hdirectory' : Path.IsName m'.directory) (hname : IsWord m.name) (hname' : IsWord m'.name)
    (hpart : part ∈ d.parts) (hpart' : part' ∈ d.parts)
    (h : Path.join (directory root d m) (m.name ++ part ++ d.extension)
      = Path.join (directory root d m') (m'.name ++ part' ++ d.extension)) :
    m.name = m'.name ∧ part = part' := by
  have hstem := hname.append (Dialect.isWord_of_mem_parts hpart)
  have hstem' := hname'.append (Dialect.isWord_of_mem_parts hpart')
  rw [path_eq root hdirectory hstem, path_eq root hdirectory' hstem'] at h
  exact Dialect.file_injective hpart hpart'
    (Path.last_injective (hstem.isName_file d) (hstem'.isName_file d) h)

/-- **No two files of modules of different names have one path.** -/
theorem paths_nodup {modules : List GeneratedModule}
    (hplaced : ∀ m ∈ modules, Path.IsName m.directory ∧ IsWord m.name)
    (hnodup : (modules.map GeneratedModule.name).Nodup) :
    ((modules.flatMap (writes root d)).map Prod.fst).Nodup := by
  rw [List.map_flatMap, List.nodup_flatMap]
  refine ⟨fun m hm => ?_, ?_⟩
  · rw [map_fst_writes]
    refine List.Nodup.map_on (fun part hpart part' hpart' h => ?_) d.parts_nodup
    exact (path_injective (hplaced m hm).1 (hplaced m hm).1 (hplaced m hm).2 (hplaced m hm).2
      hpart hpart' h).2
  · refine (List.pairwise_map.1 hnodup).imp_of_mem fun {m m'} hm hm' hne path hpath hpath' => ?_
    simp only [map_fst_writes] at hpath hpath'
    obtain ⟨part, hpart, rfl⟩ := List.mem_map.1 hpath
    obtain ⟨part', hpart', hsame⟩ := List.mem_map.1 hpath'
    exact hne (path_injective (hplaced m' hm').1 (hplaced m hm).1 (hplaced m' hm').2
      (hplaced m hm).2 hpart' hpart hsame).1.symm

/-- **The files of a module hold its text**, with a line feed at the end. -/
theorem join_writes (root : String) {d : Dialect} (hinterface : m.interface ≠ [])
    (hbody : m.body ≠ []) : String.join ((writes root d m).map Prod.snd) = contents m.lines := by
  rw [writes, List.map_map, GeneratedModule.lines,
    ← join_contents_moduleFiles d m.name hinterface hbody]
  rfl

end FileOutput

end Netscribe
