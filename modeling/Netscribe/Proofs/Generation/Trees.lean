import Netscribe.Proofs.Files.Tree
import Netscribe.Proofs.Generation.Writing

/-!
# Modules in a tree of files

A tree has room for modules if its root is a directory and what they need is free.  Then their
directories can be made and their files written, in any order in which a file comes after its directory,
and the tree shows what was written and is otherwise as it was.

* `FileTree.Room` — what a tree has to be like.
* `FileTree.Shows` — what it shows of the modules, with `FileTree.Shows.makes` and
  `FileTree.Shows.writes` for one step and `FileTree.Shows.read` for what is read.
* **`FileTree.logs_system`**, `FileTree.logs_offered` — modules can be put into a tree that has room for
  them, and so can those that a run offers.
-/

namespace Netscribe.FileTree

open FileOutput

variable {start tree tree' : FileTree} {base : List String} {root : String} {d : Dialect}
  {modules : List GeneratedModule} {m : GeneratedModule} {made : List String}
  {written : List (String × String)}

/-! ## Room -/

/-- The place of a file of a module, below that of the root. -/
def filePlace (base : List String) (d : Dialect) (m : GeneratedModule) (name : String) : List String :=
  base ++ [d.name] ++ [m.directory] ++ [name]

lemma filePlace_ne_nil (base : List String) (d : Dialect) (m : GeneratedModule) (name : String) :
    filePlace base d m name ≠ [] :=
  List.append_ne_nil_of_right_ne_nil _ (List.cons_ne_nil _ _)

/-- A place tells the path that leads there. -/
lemma path_eq_of_filePlace {m' : GeneratedModule} {name name' : String}
    (h : filePlace base d m name = filePlace base d m' name') :
    Path.join (directory root d m) name = Path.join (directory root d m') name' := by
  obtain ⟨hbelow, hname⟩ := List.append_inj' h rfl
  have hdirectory := List.singleton_inj.1 (List.append_inj' hbelow rfl).2
  rw [directory, directory, hdirectory, List.singleton_inj.1 hname]

/-- **Room for modules in a tree**: the root leads to a directory, no file stands where a directory is
needed, no directory where a file is, and the names are not too long. -/
structure Room (tree : FileTree) (root : String) (d : Dialect) (base : List String)
    (modules : List GeneratedModule) : Prop where
  leads : tree.find root = .ok (.entry base .directory)
  language : ∀ text, tree.entry? (base ++ [d.name]) ≠ some (.file text)
  directories : ∀ m ∈ modules, ∀ text,
    tree.entry? (base ++ [d.name] ++ [m.directory]) ≠ some (.file text)
  files : ∀ m ∈ modules, ∀ f ∈ m.files d, tree.entry? (filePlace base d m f.1) ≠ some .directory
  short : ∀ m ∈ modules, ∀ f ∈ m.files d, f.1.utf8ByteSize ≤ maxNameBytes
    ∧ Fits (Path.join (directory root d m) f.1)

/-- Room is left where directories are made and files written in their places. -/
lemma Room.of_keeps (h : tree.Room root d base modules) (hkeeps : tree.Keeps tree')
    (hfiles : ∀ place text, tree'.entry? place = some (.file text) →
      tree.entry? place = some (.file text) ∨ place.length = base.length + 3)
    (hdirectories : ∀ place, tree'.entry? place = some .directory →
      tree.entry? place = some .directory ∨ place.length < base.length + 3) :
    tree'.Room root d base modules where
  leads := hkeeps.find h.leads
  language text hfile := (hfiles _ _ hfile).elim (h.language text) (by simp)
  directories m hm text hfile := (hfiles _ _ hfile).elim (h.directories m hm text) (by simp)
  files m hm f hf hdirectory :=
    (hdirectories _ hdirectory).elim (h.files m hm f hf) (by simp [filePlace])
  short := h.short

/-- **What a tree shows of modules that are written**: the directories that have been made, the texts of
the files that have been written, and no other files than there were. -/
structure Shows (start : FileTree) (root : String) (d : Dialect) (base : List String)
    (modules : List GeneratedModule) (made : List String) (written : List (String × String))
    (tree : FileTree) : Prop where
  room : tree.Room root d base modules
  directories : ∀ m ∈ modules, directory root d m ∈ made →
    tree.entry? (base ++ [d.name]) = some .directory
      ∧ tree.entry? (base ++ [d.name] ++ [m.directory]) = some .directory
  files : ∀ w ∈ written, ∃ m ∈ modules, ∃ f ∈ m.files d, directory root d m ∈ made
    ∧ w = (Path.join (directory root d m) f.1, contents f.2)
    ∧ tree.entry? (filePlace base d m f.1) = some (.file (contents f.2))
  others : ∀ place, (∀ m ∈ modules, ∀ f ∈ m.files d, place ≠ filePlace base d m f.1) →
    ∀ text, tree.entry? place = some (.file text) ↔ start.entry? place = some (.file text)

/-- Nothing is shown of a tree with room to begin with. -/
lemma Room.shows (h : tree.Room root d base modules) :
    Shows tree root d base modules [] [] tree where
  room := h
  directories _ _ hmade := nomatch hmade
  files _ hw := nomatch hw
  others _ _ _ := Iff.rfl

/-! ## Names of modules -/

lemma isPlain_language (d : Dialect) : IsPlain d.name := by
  cases d <;> exact ⟨by decide, by decide, by decide⟩

/-- **A module with a place**: in one of the fixed directories, and with a word for a name. -/
def IsPlaced (m : GeneratedModule) : Prop :=
  m.directory ∈ ["circuit", "gates", "plexers"] ∧ IsWord m.name

namespace IsPlaced

lemma isPlain_directory (h : IsPlaced m) : IsPlain m.directory := by
  have hall : ∀ directory ∈ ["circuit", "gates", "plexers"],
      Path.IsName directory ∧ Path.EndsPlain directory ∧ directory.utf8ByteSize ≤ maxNameBytes := by
    decide
  obtain ⟨hname, hends, hshort⟩ := hall _ h.1
  exact ⟨hname, hends, hshort⟩

lemma directory_eq (h : IsPlaced m) (root : String) (d : Dialect) :
    directory root d m = Path.join root d.name ++ "/" ++ m.directory :=
  Path.join_join_eq d.isName_name h.isPlain_directory.isName

lemma isPlain_file (h : IsPlaced m) {f : String × List String} (hf : f ∈ m.files d)
    (hshort : f.1.utf8ByteSize ≤ maxNameBytes) : IsPlain f.1 := by
  have hmem := List.mem_map_of_mem (f := Prod.fst) hf
  rw [GeneratedModule.files, d.map_fst_moduleFiles] at hmem
  obtain ⟨part, hpart, hfile⟩ := List.mem_map.1 hmem
  have hends : Path.EndsPlain d.extension := by cases d <;> decide
  rw [← hfile] at hshort ⊢
  exact ⟨(h.2.append (Dialect.isWord_of_mem_parts hpart)).isName_file d, hends.append _, hshort⟩

lemma path_eq (h : IsPlaced m) (root : String) {f : String × List String} (hf : f ∈ m.files d)
    (hshort : f.1.utf8ByteSize ≤ maxNameBytes) :
    Path.join (directory root d m) f.1 = directory root d m ++ "/" ++ f.1 := by
  rw [directory, Path.join_join_eq h.isPlain_directory.isName (h.isPlain_file hf hshort).isName]

end IsPlaced

lemma isPlaced_of_mem_offered {ctx : Context} {scope : String}
    (hm : m ∈ ctx.offered scope d takeAll ()) : IsPlaced m :=
  have hoffered := Context.offered_placed hm
  ⟨hoffered.1, hoffered.2.1⟩

lemma exists_mem_files (d : Dialect) (m : GeneratedModule) : ∃ f, f ∈ m.files d := by
  cases d <;> exact ⟨_, List.mem_cons_self⟩

/-! ## What a tree shows -/

namespace Shows

/-- A directory above the files changes nothing that is shown. -/
lemma of_made {place : List String} (h : Shows start root d base modules made written tree)
    (hmade : Made place tree tree') (hfile : ∀ text, tree.entry? place ≠ some (.file text))
    (habove : place.length < base.length + 3) :
    Shows start root d base modules made written tree' := by
  have hother : ∀ (m : GeneratedModule) (name : String), filePlace base d m name ≠ place := by
    rintro m name rfl
    simp [filePlace] at habove
  refine ⟨h.room.of_keeps hmade.keeps (fun place' text hfound => ?_) fun place' hfound => ?_,
    fun m hm hmem => ?_, fun w hw => ?_, fun place' hplace' text => ?_⟩
  · rw [hmade.entry?_eq] at hfound
    split at hfound
    · cases hfound
    · exact .inl hfound
  · rw [hmade.entry?_eq] at hfound
    split at hfound
    · next hsame => exact .inr (hsame ▸ habove)
    · exact .inl hfound
  · obtain ⟨hlanguage, hbelow⟩ := h.directories m hm hmem
    exact ⟨hmade.keeps.2 _ hlanguage, hmade.keeps.2 _ hbelow⟩
  · obtain ⟨m, hm, f, hf, hmem, hw, hfound⟩ := h.files w hw
    exact ⟨m, hm, f, hf, hmem, hw, by rw [hmade.others _ (hother m f.1), hfound]⟩
  · rw [← h.others place' hplace' text, hmade.entry?_eq]
    split
    · next hsame => exact iff_of_false (by simp) (hsame ▸ hfile text)
    · rfl

/-- A directory that is there may be said to have been made. -/
lemma of_directory (h : Shows start root d base modules made written tree)
    (hplaced : ∀ m ∈ modules, IsPlaced m) (hm : m ∈ modules)
    (hlanguage : tree.entry? (base ++ [d.name]) = some .directory)
    (hbelow : tree.entry? (base ++ [d.name] ++ [m.directory]) = some .directory) :
    Shows start root d base modules (made ++ [directory root d m]) written tree where
  room := h.room
  directories m' hm' hmem := by
    rcases List.mem_append.1 hmem with hmem | hmem
    · exact h.directories m' hm' hmem
    · have hsame := List.mem_singleton.1 hmem
      rw [(hplaced m hm).directory_eq, (hplaced m' hm').directory_eq] at hsame
      rw [Path.last_injective (hplaced m' hm').isPlain_directory.isName
        (hplaced m hm).isPlain_directory.isName hsame]
      exact ⟨hlanguage, hbelow⟩
  files w hw := by
    obtain ⟨m', hm', f, hf, hmem, hfile⟩ := h.files w hw
    exact ⟨m', hm', f, hf, List.mem_append_left _ hmem, hfile⟩
  others := h.others

/-- **A directory of a module can be made**, and is shown then. -/
lemma makes (h : Shows start root d base modules made written tree)
    (hplaced : ∀ m ∈ modules, IsPlaced m) (hm : m ∈ modules) :
    ∃ tree', system.createDirectories (directory root d m) tree = (.ok (), tree')
      ∧ Shows start root d base modules (made ++ [directory root d m]) written tree' := by
  obtain ⟨f, hf⟩ := exists_mem_files d m
  obtain ⟨hshort, hfits⟩ := h.room.short m hm f hf
  rw [(hplaced m hm).path_eq root hf hshort, (hplaced m hm).directory_eq] at hfits
  obtain ⟨tree₁, tree', hcreate, hmade, hmade'⟩ := createDirectories_below h.room.leads
    (isPlain_language d) (hplaced m hm).isPlain_directory hfits.of_append.of_append h.room.language
    (h.room.directories m hm)
  have hfirst := h.of_made hmade h.room.language (by simp)
  have hsecond := hfirst.of_made hmade' (hfirst.room.directories m hm) (by simp)
  refine ⟨tree', ?_, hsecond.of_directory hplaced hm (hmade'.keeps.2 _ hmade.entry) hmade'.entry⟩
  rw [(hplaced m hm).directory_eq, hcreate]

/-- A path of a file goes through the directories that have been made. -/
lemma goes (h : Shows start root d base modules made written tree)
    (hplaced : ∀ m ∈ modules, IsPlaced m) (hm : m ∈ modules) {f : String × List String}
    (hf : f ∈ m.files d) (hmade : directory root d m ∈ made) :
    tree.Goes (Path.join (directory root d m) f.1) (base ++ [d.name] ++ [m.directory]) [f.1]
      ∧ Fits (Path.join (directory root d m) f.1) ∧ IsPlain f.1 := by
  obtain ⟨hshort, hfits⟩ := h.room.short m hm f hf
  have hfile := (hplaced m hm).isPlain_file hf hshort
  have hdirectory := (hplaced m hm).isPlain_directory
  obtain ⟨hlanguage, hbelow⟩ := h.directories m hm hmade
  refine ⟨?_, hfits, hfile⟩
  rw [(hplaced m hm).path_eq root hf hshort, (hplaced m hm).directory_eq]
  have hgoes := ((goes_join (.refl tree) h.room.leads d.isName_name).child hdirectory.isName).child
    hfile.isName
  exact (hgoes.enter (isPlain_language d) hlanguage).enter hdirectory hbelow

/-- **A file that has been written is read.** -/
theorem read (h : Shows start root d base modules made written tree)
    (hplaced : ∀ m ∈ modules, IsPlaced m) : ∀ w ∈ written, tree.read w.1 = .ok w.2 := by
  intro w hw
  obtain ⟨m, hm, f, hf, hmade, rfl, hfile⟩ := h.files w hw
  obtain ⟨hgoes, hfits, hplain⟩ := h.goes hplaced hm hf hmade
  exact hgoes.read hfits hplain hfile

/-- A file of a module in its place is shown. -/
lemma of_put (h : Shows start root d base modules made written tree)
    (hnodup : ((modules.flatMap (FileOutput.writes root d)).map Prod.fst).Nodup) (hm : m ∈ modules)
    {f : String × List String} (hf : f ∈ m.files d) (hmade : directory root d m ∈ made) :
    Shows start root d base modules made
      (written ++ [(Path.join (directory root d m) f.1, contents f.2)])
      (tree.put (filePlace base d m f.1) (.file (contents f.2))) := by
  have hentry := tree.entry?_put (.file (contents f.2)) (filePlace_ne_nil base d m f.1)
  have hkeeps := keeps_put (h.room.files m hm f hf) (contents f.2)
  refine ⟨h.room.of_keeps hkeeps (fun place text hfound => ?_) fun place hfound => ?_,
    fun m' hm' hmem => ?_, fun w hw => ?_, fun place hother text => ?_⟩
  · rw [hentry] at hfound
    split at hfound
    · next hsame => exact .inr (by simp [hsame, filePlace])
    · exact .inl hfound
  · rw [hentry] at hfound
    split at hfound
    · cases hfound
    · exact .inl hfound
  · obtain ⟨hlanguage, hbelow⟩ := h.directories m' hm' hmem
    exact ⟨hkeeps.2 _ hlanguage, hkeeps.2 _ hbelow⟩
  · rcases List.mem_append.1 hw with hw | hw
    · obtain ⟨m', hm', f', hf', hmem, rfl, hfound⟩ := h.files w hw
      refine ⟨m', hm', f', hf', hmem, rfl, ?_⟩
      rw [hentry]
      split
      · next hsame =>
          -- one place is one path, which is written once
          have hboth := List.inj_on_of_nodup_map hnodup
            (List.mem_flatMap.2 ⟨m', hm', List.mem_map_of_mem hf'⟩)
            (List.mem_flatMap.2 ⟨m, hm, List.mem_map_of_mem hf⟩) (path_eq_of_filePlace hsame)
          rw [(Prod.mk.inj hboth).2]
      · exact hfound
    · obtain rfl := List.mem_singleton.1 hw
      exact ⟨m, hm, f, hf, hmade, rfl, by rw [hentry, if_pos rfl]⟩
  · rw [← h.others place hother text, hentry, if_neg (hother m hm f hf)]

/-- **A file of a module can be written** where its directory has been made, and is shown then. -/
lemma writes (h : Shows start root d base modules made written tree)
    (hplaced : ∀ m ∈ modules, IsPlaced m)
    (hnodup : ((modules.flatMap (FileOutput.writes root d)).map Prod.fst).Nodup) (hm : m ∈ modules)
    {file : String × String} (hfile : file ∈ FileOutput.writes root d m)
    (hmade : directory root d m ∈ made) :
    ∃ tree', system.writeText file.1 file.2 tree = (.ok (), tree')
      ∧ Shows start root d base modules made (written ++ [file]) tree' := by
  obtain ⟨f, hf, rfl⟩ := List.mem_map.1 hfile
  obtain ⟨hgoes, hfits, hplain⟩ := h.goes hplaced hm hf hmade
  have hwrite := hgoes.write hfits hplain (h.room.files m hm f hf) (contents f.2)
  exact ⟨_, writeText_of_eq hwrite, h.of_put hnodup hm hf hmade⟩

end Shows

/-- **Modules can be put into a tree that has room for them.** -/
theorem logs_system (start : FileTree) (hplaced : ∀ m ∈ modules, IsPlaced m)
    (hnodup : ((modules.flatMap (FileOutput.writes root d)).map Prod.fst).Nodup) :
    system.Logs (Shows start root d base modules) root d modules where
  makes _ hm _ _ _ h := h.makes hplaced hm
  writes _ hm _ hfile _ _ _ hmade h := h.writes hplaced hnodup hm hfile hmade

/-- **What a run offers can be put into a tree** that has room for it. -/
theorem logs_offered (start : FileTree) (root : String) (base : List String) (ctx : Context)
    (scope : String) (d : Dialect) :
    system.Logs (Shows start root d base (ctx.offered scope d takeAll ())) root d
      (ctx.offered scope d takeAll ()) :=
  logs_system start (fun _ hm => isPlaced_of_mem_offered hm)
    (paths_nodup (ctx.offered_isName scope d takeAll ()) (ctx.offered_names_nodup scope d takeAll ()))

end Netscribe.FileTree
