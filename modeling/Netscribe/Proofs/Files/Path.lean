import Mathlib.Tactic.Common
import Netscribe.Files.Path
import Netscribe.Proofs.Data.Lists

/-!
# Names in paths

What stands between two slashes is a name.  A path below another one goes through the names of that
one first, and the path above it is that one, if neither ends in a slash or a dot.

* `Path.IsName` — a name that stands between slashes, with `Path.join_join_eq` and
  `Path.last_injective`.
* `Path.segments_append`, `Path.IsName.segments` — the names of a path.
* `Path.EndsPlain`, **`Path.parent?_append`** — the path above a name.
-/

namespace Netscribe.Path

/-! ## Names -/

/-- **A name in a path**: not empty, and without a slash. -/
def IsName (s : String) : Prop :=
  s ≠ "" ∧ '/' ∉ s.toList

instance (s : String) : Decidable (IsName s) :=
  inferInstanceAs (Decidable (_ ∧ _))

variable {directory name : String}

lemma IsName.toList_ne_nil (h : IsName name) : name.toList ≠ [] := by
  rw [Ne, String.toList_eq_nil_iff]
  exact h.1

lemma IsName.not_isAbsolute (h : IsName name) : isAbsolute name = false := by
  rw [isAbsolute, beq_eq_false_iff_ne]
  exact fun hhead => h.2 (List.mem_of_head? hhead)

/-- A path that ends in a name does not end in a slash. -/
lemma IsName.getLast?_append (h : IsName name) (before : String) :
    (before ++ name).toList.getLast? ≠ some '/' := by
  rw [String.toList_append, List.getLast?_append_of_ne_nil _ h.toList_ne_nil]
  exact fun hlast => h.2 (List.mem_of_getLast? hlast)

/-- Whatever it stands below, a name is the end of the path. -/
lemma exists_join_eq (directory : String) (h : IsName name) :
    ∃ before, join directory name = before ++ name := by
  rw [join, h.not_isAbsolute]
  split
  · exact ⟨"", by simp⟩
  · split
    · exact ⟨_, rfl⟩
    · exact ⟨_, rfl⟩

/-- **A name below a path that ends in a name** is joined by a slash. -/
lemma join_join_eq {outer : String} (houter : IsName outer) (h : IsName name) :
    join (join directory outer) name = join directory outer ++ "/" ++ name := by
  obtain ⟨before, hbefore⟩ := exists_join_eq directory houter
  have hempty : (join directory outer).isEmpty = false := by
    rw [← Bool.not_eq_true, String.isEmpty_iff, hbefore, String.append_eq_empty_iff]
    exact fun hempty => houter.1 hempty.2
  have hlast : ((join directory outer).toList.getLast? == some '/') = false := by
    rw [hbefore, beq_eq_false_iff_ne]
    exact houter.getLast?_append before
  rw [join.eq_def (join directory outer), h.not_isAbsolute, hempty, hlast]
  rfl

/-- **A path tells the name it ends in.** -/
lemma last_injective {before before' name' : String} (h : IsName name) (h' : IsName name')
    (hsame : before ++ "/" ++ name = before' ++ "/" ++ name') : name = name' := by
  have hnames : ∀ {s : String}, IsName s → ∀ c ∈ s.toList.reverse, (c != '/') = true := by
    intro s hs c hc
    rw [bne_iff_ne]
    rintro rfl
    exact hs.2 (List.mem_reverse.1 hc)
  -- read from the end, the name goes on up to the slash
  have hreverse := congrArg (fun s : String => s.toList.reverse) hsame
  simp only [String.toList_append, List.reverse_append] at hreverse
  refine String.toList_inj.1 (List.reverse_injective ?_)
  exact (append_inj_of_boundary (p := fun c => c != '/') (hnames h) (hnames h')
    (by simp) (by simp) hreverse).1

/-! ## The names of a path -/

lemma segmentsFrom_append (name xs ys : List Char) :
    segmentsFrom name (xs ++ '/' :: ys) = segmentsFrom name xs ++ segmentsFrom [] ys := by
  induction xs generalizing name with
  | nil => simp [segmentsFrom]
  | cons c cs ih =>
      rw [List.cons_append, segmentsFrom, segmentsFrom]
      split
      · rw [ih, List.cons_append]
      · rw [ih]

lemma segmentsFrom_of_not_mem (name : List Char) {cs : List Char} (h : '/' ∉ cs) :
    segmentsFrom name cs = [String.ofList (name.reverse ++ cs)] := by
  induction cs generalizing name with
  | nil => rw [segmentsFrom, List.append_nil]
  | cons c cs ih =>
      obtain ⟨hc, hcs⟩ := not_or.1 (List.mem_cons.not.1 h)
      rw [segmentsFrom, if_neg (Ne.symm hc), ih _ hcs, List.reverse_cons, List.append_assoc]
      rfl

/-- A name has no slash that could part it. -/
lemma IsName.segments (h : IsName name) : segments name = [name] := by
  rw [Path.segments, segmentsFrom_of_not_mem [] h.2]
  simp

lemma segments_append (path more : String) :
    segments (path ++ "/" ++ more) = segments path ++ segments more := by
  rw [segments, segments, segments, ← segmentsFrom_append]
  simp

lemma isAbsolute_append {path : String} (h : path ≠ "") (more : String) :
    isAbsolute (path ++ more) = isAbsolute path := by
  rw [isAbsolute, isAbsolute, String.toList_append,
    List.head?_append_of_ne_nil _ (by rwa [Ne, String.toList_eq_nil_iff])]

/-! ## The path above -/

lemma dropTrailing_of_head {c : Char} {cs : List Char} (hslash : c ≠ '/') (hdot : c ≠ '.') :
    dropTrailing (c :: cs) = c :: cs := by
  rw [dropTrailing.eq_def]
  split
  · next heq => exact absurd (List.cons.inj heq).1 hslash
  · next heq => exact absurd (List.cons.inj heq).1 hslash
  · next heq => exact absurd (List.cons.inj heq).1 hdot
  · rfl

/-- **A text that does not end in a slash or a dot**, and is not empty. -/
def EndsPlain (path : String) : Prop :=
  ∃ c ∈ path.toList.getLast?, c ≠ '/' ∧ c ≠ '.'

instance (path : String) : Decidable (EndsPlain path) :=
  decidable_of_iff (path.toList.getLast?.any fun c => c ≠ '/' ∧ c ≠ '.') (by
    simp [EndsPlain, Option.any_eq_true])

lemma EndsPlain.append (h : EndsPlain name) (before : String) : EndsPlain (before ++ name) := by
  obtain ⟨c, hc, hplain⟩ := h
  refine ⟨c, ?_, hplain⟩
  rw [String.toList_append, List.getLast?_append, hc]
  rfl

lemma EndsPlain.exists_reverse {path : String} (h : EndsPlain path) :
    ∃ c cs, path.toList.reverse = c :: cs ∧ c ≠ '/' ∧ c ≠ '.' := by
  obtain ⟨c, hc, hplain⟩ := h
  obtain ⟨cs, hcs⟩ := List.getLast?_eq_some_iff.1 hc
  exact ⟨c, cs.reverse, by rw [hcs]; simp, hplain⟩

/-- **The path above a name**, where neither ends in a slash or a dot. -/
lemma parent?_append {path : String} (hpath : EndsPlain path) (h : IsName name)
    (hname : EndsPlain name) : parent? (path ++ "/" ++ name) = some path := by
  obtain ⟨c, cs, hcs, hslash, hdot⟩ := hname.exists_reverse
  obtain ⟨b, bs, hbs, hslash', hdot'⟩ := hpath.exists_reverse
  have hreverse : (path ++ "/" ++ name).toList.reverse = c :: cs ++ '/' :: b :: bs := by
    simp only [String.toList_append, List.reverse_append, hcs, hbs]
    rfl
  have hdrop : (c :: cs ++ '/' :: b :: bs).dropWhile (· != '/') = '/' :: b :: bs := by
    rw [← hcs]
    exact dropWhile_append_of_boundary
      (fun x hx => bne_iff_ne.2 fun hx' => h.2 (List.mem_reverse.1 (hx' ▸ hx))) (by simp)
  have habove : dropTrailing ('/' :: b :: bs) = b :: bs := by
    rw [dropTrailing.eq_def]
    exact dropTrailing_of_head hslash' hdot'
  rw [parent?, hreverse, List.cons_append, dropTrailing_of_head hslash hdot]
  split
  · next heq => cases heq
  · next heq => exact absurd (List.cons.inj heq).1 hslash
  · rw [← List.cons_append, hdrop, habove, ← hbs]
    simp

end Netscribe.Path
