import Netscribe.Files.Tree
import Netscribe.Proofs.Files.Path

/-!
# What stands in a tree of files

A tree is known by what stands at each of its places: to put an entry somewhere changes that place only.
A path that leads to a directory does so as long as the directories stay, and a name below it leads one
place further.

* `FileTree.entry?_put` — what stands at a place after an entry was put somewhere.
* `FileTree.Keeps`, `FileTree.walk_append` — walks through directories that stay.
* `FileTree.Goes` — where a path goes, with `FileTree.goes_join`, `FileTree.Goes.child` and
  `FileTree.Goes.enter`.
* `FileTree.Made`, **`FileTree.createDirectories_below`** — directories that are made.
* `FileTree.Goes.write`, `FileTree.Goes.read` — files that are written and read.
-/

namespace Netscribe

/-- What an effect leaves is handed on. -/
lemma bind_of_eq {τ α β : Type} {x : StateM τ α} {t t' : τ} {a : α} (h : x t = (a, t'))
    (go : α → StateM τ β) : (x >>= go) t = go a t' := by
  show go (x t).1 (x t).2 = go a t'
  rw [h]

namespace FileTree

variable {tree tree' : FileTree} {place place' base : List String} {entry : FileEntry}

/-! ## Entries -/

lemma lookup_cons_ite (place place' : List String) (entry : FileEntry)
    (entries : List (List String × FileEntry)) :
    List.lookup place' ((place, entry) :: entries)
      = if place' = place then some entry else entries.lookup place' := by
  rw [List.lookup_cons]
  cases h : place' == place with
  | true => rw [if_pos (beq_iff_eq.1 h)]
  | false => rw [if_neg (beq_eq_false_iff_ne.1 h)]

/-- What is looked up where the entry of one place was replaced. -/
lemma lookup_replace (place place' : List String) (entry : FileEntry)
    (entries : List (List String × FileEntry)) :
    (entries.map fun e => if e.1 == place then (place, entry) else e).lookup place'
      = if place' = place then (entries.lookup place).map fun _ => entry
        else entries.lookup place' := by
  induction entries with
  | nil => simp
  | cons e entries ih =>
      obtain ⟨k, x⟩ := e
      rw [List.map_cons, lookup_cons_ite, lookup_cons_ite]
      by_cases hk : k = place
      · rw [if_pos (beq_iff_eq.2 hk), lookup_cons_ite, ih, if_pos hk.symm, hk]
        split <;> rfl
      · rw [if_neg (beq_iff_eq.not.2 hk), lookup_cons_ite, ih, if_neg (Ne.symm hk)]
        by_cases h : place' = place
        · rw [if_pos h, if_pos h, if_neg (h ▸ Ne.symm hk)]
        · rw [if_neg h, if_neg h]

/-- **What stands at a place** after an entry was put somewhere. -/
lemma entry?_put (tree : FileTree) (entry : FileEntry) (hplace : place ≠ [])
    (place' : List String) :
    FileTree.entry? (tree.put place entry) place'
      = if place' = place then some entry else tree.entry? place' := by
  have hlookup : (tree.put place entry).entries.lookup place'
      = if place' = place then some entry else tree.entries.lookup place' := by
    rw [put]
    dsimp only
    split
    · next hany =>
        obtain ⟨e, he, hkey⟩ := List.any_eq_true.1 hany
        rw [lookup_replace]
        split
        · cases hnone : tree.entries.lookup place with
          | some => rfl
          | none => exact absurd (List.lookup_eq_none_iff.1 hnone e he) (by simp [beq_iff_eq.1 hkey])
        · rfl
    · next hany =>
        rw [List.lookup_append, lookup_cons_ite]
        split
        · next h =>
            have hnone : tree.entries.lookup place' = none := by
              refine List.lookup_eq_none_iff.2 fun e he => bne_iff_ne.2 fun hkey => hany ?_
              exact List.any_eq_true.2 ⟨e, he, beq_iff_eq.2 (hkey.symm.trans h)⟩
            rw [hnone, Option.none_or]
        · exact Option.or_none
  unfold FileTree.entry?
  rw [hlookup]
  cases place' with
  | nil => exact (if_neg (Ne.symm hplace)).symm
  | cons => rfl

/-! ## Walks -/

variable {names more : List String} {name : String}

/-- **All directories stay** from one tree to another. -/
def Keeps (tree tree' : FileTree) : Prop :=
  tree'.current = tree.current
    ∧ ∀ place, tree.entry? place = some .directory → tree'.entry? place = some .directory

lemma Keeps.refl (tree : FileTree) : tree.Keeps tree :=
  ⟨rfl, fun _ h => h⟩

/-- A walk that ends in a directory comes through its first name, wherever it goes on to, in every tree
that keeps the directories. -/
lemma exists_walk_cons (h : tree.walk place (name :: names) = .ok (.entry base .directory)) :
    ∃ next, tree.walk next names = .ok (.entry base .directory)
      ∧ ∀ {tree'}, tree.Keeps tree' →
        ∀ more, tree'.walk place (name :: more) = tree'.walk next more := by
  rw [walk] at h
  split at h
  · next hname => exact ⟨place, h, fun _ more => by rw [walk, if_pos hname]⟩
  · next hname =>
      split at h
      · next hup => exact ⟨_, h, fun _ more => by rw [walk, if_neg hname, if_pos hup]⟩
      · next hup =>
          split at h
          · cases h
          · next hshort =>
              split at h
              · next hentry =>
                  refine ⟨_, h, fun hkeeps more => ?_⟩
                  rw [walk, if_neg hname, if_neg hup, if_neg hshort, hkeeps.2 _ hentry]
              · split at h <;> cases h
              · split at h <;> cases h

/-- **A walk that ends in a directory** does so in every tree that keeps the directories, and goes on
from there. -/
lemma walk_append (hkeeps : tree.Keeps tree')
    (h : tree.walk place names = .ok (.entry base .directory)) (more : List String) :
    tree'.walk place (names ++ more) = tree'.walk base more := by
  induction names generalizing place with
  | nil =>
      cases h
      rfl
  | cons name names ih =>
      obtain ⟨next, hrest, hpass⟩ := exists_walk_cons h
      rw [List.cons_append, hpass hkeeps, ih hrest]

/-- A slash at the end of a path changes nothing. -/
lemma walk_of_append_empty (h : tree.walk place (names ++ [""]) = .ok (.entry base .directory)) :
    tree.walk place names = .ok (.entry base .directory) := by
  induction names generalizing place with
  | nil => exact h
  | cons name names ih =>
      obtain ⟨next, hrest, hpass⟩ := exists_walk_cons h
      rw [hpass (.refl tree), ih hrest]

/-! ## Paths below a directory -/

/-- **A name that is taken as it is**: it stands between slashes, does not end in a dot, and is not too
long. -/
structure IsPlain (name : String) : Prop where
  isName : Path.IsName name
  ends : Path.EndsPlain name
  short : name.utf8ByteSize ≤ maxNameBytes

/-- A plain name is walked to. -/
lemma IsPlain.walk_cons (h : IsPlain name) (tree : FileTree) (place names : List String) :
    tree.walk place (name :: names) = match tree.entry? (place ++ [name]) with
      | some .directory => tree.walk (place ++ [name]) names
      | some (.file text) =>
        if names.isEmpty then .ok (.entry (place ++ [name]) (.file text)) else .error .notADirectory
      | none =>
        if names.all String.isEmpty then .ok (.free (place ++ [name]) (!names.isEmpty))
        else .error .notFound := by
  have hdots : ∀ other, ¬ Path.EndsPlain other → name ≠ other :=
    fun _ hother heq => hother (heq ▸ h.ends)
  have hskip : ¬ (name = "" ∨ name = ".") := not_or.2 ⟨h.isName.1, hdots "." (by decide)⟩
  rw [walk, if_neg hskip, if_neg (hdots ".." (by decide))]
  exact if_neg (Nat.not_lt.2 h.short)

/-- Where a path starts. -/
def start (tree : FileTree) (path : String) : List String :=
  if Path.isAbsolute path then [] else tree.current

/-- **Where a path goes**: from a directory on through some names. -/
def Goes (tree : FileTree) (path : String) (place names : List String) : Prop :=
  path ≠ "" ∧ ∀ more, tree.walk (tree.start path) (Path.segments path ++ more)
    = tree.walk place (names ++ more)

/-- **A path that can be looked at**: not too long, and without zero characters. -/
def Fits (path : String) : Prop :=
  '\x00' ∉ path.toList ∧ path.utf8ByteSize ≤ maxPathBytes

instance (path : String) : Decidable (Fits path) :=
  inferInstanceAs (Decidable (_ ∧ _))

lemma find_of_fits {path : String} (hpath : Fits path) (hne : path ≠ "") :
    tree.find path = tree.walk (tree.start path) (Path.segments path) := by
  rw [find, start, if_neg (by simpa using hne), if_neg (by simpa using hpath.1),
    if_neg (Nat.not_lt.2 hpath.2)]

lemma fits_of_find {path : String} {target : Target} (h : tree.find path = .ok target) :
    Fits path ∧ path ≠ "" := by
  rw [find] at h
  split at h
  · cases h
  · next hempty =>
      split at h
      · cases h
      · next hzero =>
          split at h
          · cases h
          · next hlong => exact ⟨⟨by simpa using hzero, Nat.not_lt.1 hlong⟩, by simpa using hempty⟩

namespace Goes

variable {path : String}

lemma find (h : tree.Goes path place names) (hpath : Fits path) :
    tree.find path = tree.walk place names := by
  rw [find_of_fits hpath h.1, ← List.append_nil (Path.segments path), h.2, List.append_nil]

/-- One name more. -/
lemma child (h : tree.Goes path place names) (hname : Path.IsName name) :
    tree.Goes (path ++ "/" ++ name) place (names ++ [name]) := by
  refine ⟨fun hempty => hname.1 (String.append_eq_empty_iff.1 hempty).2, fun more => ?_⟩
  have hstart : tree.start (path ++ "/" ++ name) = tree.start path := by
    rw [start, start, String.append_assoc, Path.isAbsolute_append h.1]
  rw [hstart, Path.segments_append, hname.segments, List.append_assoc, h.2, List.append_assoc]

/-- A name that is that of a directory leads on. -/
lemma enter (h : tree.Goes path place (name :: names)) (hname : IsPlain name)
    (hentry : tree.entry? (place ++ [name]) = some .directory) :
    tree.Goes path (place ++ [name]) names := by
  refine ⟨h.1, fun more => ?_⟩
  rw [h.2, List.cons_append, hname.walk_cons, hentry]

end Goes

/-- **A name below a path that leads to a directory**, in every tree that keeps the directories. -/
lemma goes_join {path : String} (hkeeps : tree.Keeps tree')
    (h : tree.find path = .ok (.entry base .directory)) (hname : Path.IsName name) :
    tree'.Goes (Path.join path name) base [name] := by
  obtain ⟨hfits, hne⟩ := fits_of_find h
  rw [find_of_fits hfits hne] at h
  have hstart : ∀ more, tree'.start (path ++ more) = tree.start path := by
    intro more
    rw [start, start, Path.isAbsolute_append hne, hkeeps.1]
  rw [Path.join, hname.not_isAbsolute, Bool.false_or, if_neg (by simpa using hne)]
  split
  · next hslash =>
      -- the name stands in the place of the empty one behind the slash
      obtain ⟨before, rfl⟩ : ∃ before, path = before ++ "/" := by
        obtain ⟨cs, hcs⟩ := List.getLast?_eq_some_iff.1 (beq_iff_eq.1 hslash)
        exact ⟨String.ofList cs, by rw [← String.toList_inj, hcs]; simp⟩
      have hempty : Path.segments (before ++ "/") = Path.segments before ++ [""] := by
        have hsplit := Path.segments_append before ""
        rw [String.append_empty] at hsplit
        exact hsplit
      rw [hempty] at h
      refine ⟨fun hnil => hne (String.append_eq_empty_iff.1 hnil).1, fun more => ?_⟩
      rw [hstart, Path.segments_append, hname.segments, List.append_assoc,
        walk_append hkeeps (walk_of_append_empty h)]
  · refine ⟨fun hempty => hname.1 (String.append_eq_empty_iff.1 hempty).2, fun more => ?_⟩
    rw [Path.segments_append, hname.segments, String.append_assoc, hstart, List.append_assoc,
      walk_append hkeeps h]

/-- A path to a directory stays one where the directories are kept. -/
lemma Keeps.find {path : String} (h : tree.Keeps tree')
    (hpath : tree.find path = .ok (.entry base .directory)) :
    tree'.find path = .ok (.entry base .directory) := by
  obtain ⟨hfits, hne⟩ := fits_of_find hpath
  rw [find_of_fits hfits hne] at hpath ⊢
  have hwalk := walk_append h hpath []
  rw [List.append_nil] at hwalk
  rw [start, h.1]
  exact hwalk

/-! ## Directories -/

/-- **A directory stands at a place**, and all else is as it was. -/
structure Made (place : List String) (tree tree' : FileTree) : Prop where
  current : tree'.current = tree.current
  entry : tree'.entry? place = some .directory
  others : ∀ place' ≠ place, tree'.entry? place' = tree.entry? place'

lemma Made.keeps (h : Made place tree tree') : tree.Keeps tree' := by
  refine ⟨h.current, fun place' hplace' => ?_⟩
  by_cases hsame : place' = place
  · rw [hsame, h.entry]
  · rw [h.others _ hsame, hplace']

lemma Made.entry?_eq (h : Made place tree tree') (place' : List String) :
    tree'.entry? place' = if place' = place then some .directory else tree.entry? place' := by
  split
  · next hsame => rw [hsame, h.entry]
  · next hother => exact h.others _ hother

namespace Goes

variable {path : String}

/-- What is found at the end of a path. -/
lemma find_child (h : tree.Goes path place [name]) (hpath : Fits path) (hname : IsPlain name) :
    tree.find path = .ok (match tree.entry? (place ++ [name]) with
      | some entry => .entry (place ++ [name]) entry
      | none => .free (place ++ [name]) false) := by
  rw [h.find hpath, hname.walk_cons]
  cases tree.entry? (place ++ [name]) with
  | none => rfl
  | some entry => cases entry <;> rfl

/-- **A directory can be made where no file stands**; if there is one already, it is one. -/
lemma makeDirectory (h : tree.Goes path place [name]) (hpath : Fits path) (hname : IsPlain name)
    (hfile : ∀ text, tree.entry? (place ++ [name]) ≠ some (.file text)) :
    (∃ tree', tree.makeDirectory path = .ok tree' ∧ Made (place ++ [name]) tree tree')
      ∨ tree.makeDirectory path = .error .alreadyExists ∧ tree.isDirectory path = true
        ∧ Made (place ++ [name]) tree tree := by
  have hfind := h.find_child hpath hname
  cases hentry : tree.entry? (place ++ [name]) with
  | none =>
      rw [hentry] at hfind
      refine .inl ⟨tree.put (place ++ [name]) .directory, by rw [FileTree.makeDirectory, hfind], rfl,
        ?_, fun place' hplace' => ?_⟩
      · rw [entry?_put _ _ (by simp), if_pos rfl]
      · rw [entry?_put _ _ (by simp), if_neg hplace']
  | some entry =>
      cases entry with
      | file text => exact absurd hentry (hfile text)
      | directory =>
          rw [hentry] at hfind
          exact .inr ⟨by rw [FileTree.makeDirectory, hfind], by rw [isDirectory, hfind], rfl, hentry,
            fun _ _ => rfl⟩

/-- There is no directory to be made below one that is missing. -/
lemma makeDirectory_of_missing {outer : String} (h : tree.Goes path place [outer, name])
    (hpath : Fits path) (houter : IsPlain outer) (hname : IsPlain name)
    (hentry : tree.entry? (place ++ [outer]) = none) :
    tree.makeDirectory path = .error .notFound := by
  have hempty : [name].all String.isEmpty = false := by simpa using hname.isName.1
  rw [FileTree.makeDirectory, h.find hpath, houter.walk_cons, hentry]
  simp only [hempty, Bool.false_eq_true, if_false]

end Goes

/-- How a directory of a tree is made, given how the one above is. -/
lemma createAbove_system (path : String) (above : StateM FileTree (Except FileError Unit))
    (tree : FileTree) : system.createAbove path above tree
      = match tree.makeDirectory path with
        | .ok tree' => (.ok (), tree')
        | .error .notFound =>
          match above tree with
          | (.error cause, tree') => (.error cause, tree')
          | (.ok (), tree') =>
            match tree'.makeDirectory path with
            | .ok tree'' => (.ok (), tree'')
            | .error cause => (if tree'.isDirectory path then .ok () else .error cause, tree')
        | .error cause => (if tree.isDirectory path then .ok () else .error cause, tree) := by
  have hstep : ∀ tree : FileTree, system.makeDirectory path tree = match tree.makeDirectory path with
      | .ok tree' => (.ok (), tree')
      | .error cause => (.error cause, tree) := fun _ => rfl
  rw [FileSystem.createAbove, bind_of_eq (hstep tree)]
  cases tree.makeDirectory path with
  | ok tree' => rfl
  | error cause =>
      cases cause with
      | notFound =>
          rcases habove : above tree with ⟨_ | ⟨⟨⟩⟩, tree'⟩
          · exact bind_of_eq habove _
          · refine (bind_of_eq habove _).trans ?_
            dsimp only
            rw [bind_of_eq (hstep tree')]
            cases tree'.makeDirectory path <;> rfl
      | _ => rfl

lemma createAbove_child {path : String} (h : tree.Goes path place [name]) (hpath : Fits path)
    (hname : IsPlain name) (hfile : ∀ text, tree.entry? (place ++ [name]) ≠ some (.file text))
    (above : StateM FileTree (Except FileError Unit)) :
    ∃ tree', system.createAbove path above tree = (.ok (), tree')
      ∧ Made (place ++ [name]) tree tree' := by
  rw [createAbove_system]
  rcases h.makeDirectory hpath hname hfile with
    ⟨tree', hmake, hmade⟩ | ⟨hexists, hdirectory, hmade⟩
  · exact ⟨tree', by rw [hmake], hmade⟩
  · exact ⟨tree, by rw [hexists, hdirectory]; rfl, hmade⟩

lemma createWithin_child {path : String} (h : tree.Goes path place [name]) (hpath : Fits path)
    (hname : IsPlain name) (hfile : ∀ text, tree.entry? (place ++ [name]) ≠ some (.file text))
    (levels : ℕ) : ∃ tree', system.createWithin (levels + 1) path tree = (.ok (), tree')
      ∧ Made (place ++ [name]) tree tree' := by
  rw [FileSystem.createWithin, if_neg (by simpa using h.1)]
  exact createAbove_child h hpath hname hfile _

/-- A directory below one that was missing. -/
lemma createAbove_grandchild {path outer : String} {tree₁ : FileTree}
    {above : StateM FileTree (Except FileError Unit)} (h : tree.Goes path place [outer, name])
    (h₁ : tree₁.Goes path place [outer, name]) (hpath : Fits path) (houter : IsPlain outer)
    (hname : IsPlain name) (hmissing : tree.entry? (place ++ [outer]) = none)
    (habove : above tree = (.ok (), tree₁)) (hmade : Made (place ++ [outer]) tree tree₁)
    (hfile : ∀ text, tree₁.entry? (place ++ [outer] ++ [name]) ≠ some (.file text)) :
    ∃ tree', system.createAbove path above tree = (.ok (), tree')
      ∧ Made (place ++ [outer] ++ [name]) tree₁ tree' := by
  rw [createAbove_system, h.makeDirectory_of_missing hpath houter hname hmissing, habove]
  rcases (h₁.enter houter hmade.entry).makeDirectory hpath hname hfile with
    ⟨tree', hmake, hmade'⟩ | ⟨hexists, hdirectory, hmade'⟩
  · exact ⟨tree', by simp only [hmake], hmade'⟩
  · exact ⟨tree₁, by simp only [hexists, hdirectory, if_true], hmade'⟩

lemma Fits.of_append {path more : String} (h : Fits (path ++ more)) : Fits path := by
  refine ⟨fun hmem => h.1 ?_, Nat.le_trans ?_ h.2⟩
  · rw [String.toList_append]
    exact List.mem_append_left _ hmem
  · rw [String.utf8ByteSize_append]
    exact Nat.le_add_right _ _

/-- **A directory two levels below one that exists** can be made, if no file stands in the way. -/
theorem createDirectories_below {root outer : String}
    (hroot : tree.find root = .ok (.entry base .directory)) (houter : IsPlain outer)
    (hname : IsPlain name) (hpath : Fits (Path.join root outer ++ "/" ++ name))
    (hfile : ∀ text, tree.entry? (base ++ [outer]) ≠ some (.file text))
    (hfile' : ∀ text, tree.entry? (base ++ [outer] ++ [name]) ≠ some (.file text)) :
    ∃ tree₁ tree', system.createDirectories (Path.join root outer ++ "/" ++ name) tree = (.ok (), tree')
      ∧ Made (base ++ [outer]) tree tree₁ ∧ Made (base ++ [outer] ++ [name]) tree₁ tree' := by
  have hjoin : Path.EndsPlain (Path.join root outer) := by
    obtain ⟨before, hbefore⟩ := Path.exists_join_eq root houter.isName
    exact hbefore ▸ houter.ends.append before
  have hgoes : ∀ {tree'}, tree.Keeps tree' →
      tree'.Goes (Path.join root outer ++ "/" ++ name) base [outer, name] :=
    fun hkeeps => (goes_join hkeeps hroot houter.isName).child hname.isName
  have hne : (Path.join root outer ++ "/" ++ name).isEmpty = false := by simp
  obtain ⟨k, hk⟩ : ∃ k, (Path.join root outer ++ "/" ++ name).length = k + 1 :=
    ⟨_, by rw [String.length_append, String.length_append]; exact Nat.add_right_comm _ 1 _⟩
  rw [FileSystem.createDirectories, FileSystem.createWithin, if_neg (by simp [hne]),
    Path.parent?_append hjoin hname.isName hname.ends, hk]
  dsimp only
  cases hentry : tree.entry? (base ++ [outer]) with
  | none =>
      obtain ⟨tree₁, habove, hmade⟩ := createWithin_child (goes_join (.refl tree) hroot houter.isName)
        hpath.of_append.of_append houter hfile k
      have hbelow : ∀ text, tree₁.entry? (base ++ [outer] ++ [name]) ≠ some (.file text) := by
        rw [hmade.others _ (by simp)]
        exact hfile'
      obtain ⟨tree', hcreate, hmade'⟩ := createAbove_grandchild (hgoes (.refl tree))
        (hgoes hmade.keeps) hpath houter hname hentry habove hmade hbelow
      exact ⟨tree₁, tree', hcreate, hmade, hmade'⟩
  | some entry =>
      cases entry with
      | file text => exact absurd hentry (hfile text)
      | directory =>
          obtain ⟨tree', hcreate, hmade⟩ := createAbove_child
            ((hgoes (.refl tree)).enter houter hentry) hpath hname hfile' _
          exact ⟨tree, tree', hcreate, ⟨rfl, hentry, fun _ _ => rfl⟩, hmade⟩

/-! ## Files -/

lemma keeps_put (hentry : tree.entry? place ≠ some .directory) (text : String) :
    tree.Keeps (tree.put place (.file text)) := by
  have hplace : place ≠ [] := by
    rintro rfl
    exact hentry rfl
  refine ⟨rfl, fun place' hplace' => ?_⟩
  have hother : place' ≠ place := fun hsame => hentry (hsame ▸ hplace')
  rw [entry?_put _ _ hplace, if_neg hother, hplace']

lemma writeText_of_eq {path text : String} (h : tree.write path text = .ok tree') :
    system.writeText path text tree = (.ok (), tree') := by
  show changing (fun tree => tree.write path text) tree = _
  rw [changing, h]

namespace Goes

variable {path text : String}

/-- **A file can be written where no directory stands.** -/
lemma write (h : tree.Goes path place [name]) (hpath : Fits path) (hname : IsPlain name)
    (hentry : tree.entry? (place ++ [name]) ≠ some .directory) (text : String) :
    tree.write path text = .ok (tree.put (place ++ [name]) (.file text)) := by
  rw [FileTree.write, h.find_child hpath hname]
  cases hfound : tree.entry? (place ++ [name]) with
  | none => rfl
  | some entry =>
      cases entry with
      | file => rfl
      | directory => exact absurd hfound hentry

lemma read (h : tree.Goes path place [name]) (hpath : Fits path) (hname : IsPlain name)
    (hentry : tree.entry? (place ++ [name]) = some (.file text)) : tree.read path = .ok text := by
  rw [FileTree.read, h.find_child hpath hname, hentry]

end Goes

end FileTree

end Netscribe
