import Netscribe.Proofs.Circuit.Interface
import Netscribe.Proofs.Hdl.Bracketed
import Netscribe.Proofs.Hdl.Statement
import Netscribe.Proofs.Text.Order

/-!
# Instances read back

The lines of an instance list its port map.  Formals are words, or in VHDL elements of a port, and so
each of them ends where a blank or a parenthesis stands.  Their order is that of plain texts, in which
`x(10)` comes before `x(2)`; the elements of a port still stay together, since whatever stands between
two of them starts with the name of the port and a parenthesis.

* `Dialect.association?` — a reader for formal and actual.
* `Ref.IsFormal`, `Ref.IsFormal.element_of_between` — formals, and elements of a port in their order.
* `PortMap.Listed` — what it is for an instance to list a port map.
* `PortMap.listed_ofBindings` — the port map of bindings is listed.
* **`PortMap.listed_instances`** — every port map that is made is listed.
-/

namespace Netscribe

/-! ## Readers -/

namespace Dialect

/-- What the first line of an instance starts with. -/
def instanceHead (definition label : String) : Dialect → String
  | .vhdl => "   " ++ label ++ " : " ++ definition
  | .verilog => "   " ++ definition ++ " " ++ label ++ " ("

/-- How many lines an instance has before those of its associations. -/
def headerLines : Dialect → ℕ
  | .vhdl => 1
  | .verilog => 0

/-- The column in which an association starts: in Verilog the first follows what the instance starts
with, and the others stand below it. -/
def associationColumn (head : String) (place : ℕ) : Dialect → ℕ
  | .vhdl => 17
  | .verilog => if place = 0 then head.length else head.utf8ByteSize

/-- What an actual is followed by: in the last association, and in the others. -/
def actualEnds : Dialect → List String
  | .vhdl => [" );", ","]
  | .verilog => ["));", "),"]

/-- The actual in front of its end. -/
def actual? (d : Dialect) (cs : List Char) : Option String :=
  (d.actualEnds.findSome? fun stop => stop.toList.isSuffixOf? cs).map String.ofList

/-- **Formal and actual of an association**: in VHDL there is an arrow between them, and in Verilog a dot in
front and a parenthesis in between. -/
def association? (d : Dialect) (cs : List Char) : Option (String × String) :=
  match d with
  | .vhdl => do
    let rest ← "=> ".toList.isPrefixOf? ((cs.dropWhile (· != ' ')).dropWhile (· == ' '))
    let actual ← actual? .vhdl rest
    return (String.ofList (cs.takeWhile (· != ' ')), actual)
  | .verilog => do
    let cs ← ".".toList.isPrefixOf? cs
    let rest ← "(".toList.isPrefixOf? (cs.dropWhile (· != '('))
    let actual ← actual? .verilog rest
    return (String.ofList (cs.takeWhile (· != '(')), actual)

/-! ## Associations -/

lemma actual?_append (d : Dialect) (actual : String) {stop : String} (h : stop ∈ d.actualEnds) :
    d.actual? (actual.toList ++ stop.toList) = some actual := by
  obtain ⟨last, later, hends, hlast, hlater⟩ : ∃ last later, d.actualEnds = [last, later]
      ∧ last.toList.getLast? = some ';' ∧ later.toList.getLast? = some ',' := by
    cases d <;> exact ⟨_, _, rfl, rfl, rfl⟩
  rw [actual?, hends, List.findSome?_cons]
  rw [hends] at h
  rcases List.mem_pair.1 h with rfl | rfl
  · rw [List.isSuffixOf?_eq_some_iff_append_eq.2 rfl]
    simp
  · -- what ends in a comma does not end in a semicolon
    have hnone : last.toList.isSuffixOf? (actual.toList ++ stop.toList) = none := by
      refine Option.eq_none_iff_forall_ne_some.2 fun cs hcs => ?_
      have heq := congrArg List.getLast? (List.isSuffixOf?_eq_some_iff_append_eq.1 hcs)
      rw [List.getLast?_append, List.getLast?_append, hlast, hlater] at heq
      cases heq
    rw [hnone]
    simp [List.isSuffixOf?_eq_some_iff_append_eq.2 rfl]

lemma association?_vhdl {formal actual stop : String} (hformal : ' ' ∉ formal.toList)
    (hstop : stop ∈ actualEnds .vhdl) :
    association? .vhdl (alignName formal ++ " => " ++ actual ++ stop).toList
      = some (formal, actual) := by
  have hcs : (alignName formal ++ " => " ++ actual ++ stop).toList
      = formal.toList ++ (List.replicate (nameColumn - formal.length + 1) ' '
        ++ ("=> ".toList ++ (actual.toList ++ stop.toList))) := by
    simp only [alignName, String.toList_append, List.append_assoc]
    exact toList_padRight_blank _ _ _
  have hletters : ∀ c ∈ formal.toList, (c != ' ') = true := by
    intro c hc
    simpa using fun h : c = ' ' => hformal (h ▸ hc)
  have hblank : ∀ c ∈ (List.replicate (nameColumn - formal.length + 1) ' '
      ++ ("=> ".toList ++ (actual.toList ++ stop.toList))).head?, (c != ' ') = false := by
    rintro c ⟨⟩
    rfl
  rw [association?, hcs, takeWhile_append_of_boundary hletters hblank,
    dropWhile_append_of_boundary hletters hblank, dropWhile_blanks _ (by rintro c ⟨⟩; decide),
    List.isPrefixOf?_eq_some_iff_append_eq.2 rfl]
  simp only [Option.bind_eq_bind, Option.bind_some, actual?_append .vhdl actual hstop,
    String.ofList_toList, Option.pure_def]

lemma association?_verilog {formal actual stop : String} (hformal : '(' ∉ formal.toList)
    (hstop : ")" ++ stop ∈ actualEnds .verilog) :
    association? .verilog ("." ++ formal ++ "(" ++ actual ++ ")" ++ stop).toList
      = some (formal, actual) := by
  have hcs : ("." ++ formal ++ "(" ++ actual ++ ")" ++ stop).toList
      = ".".toList ++ (formal.toList ++ ("(".toList ++ (actual.toList ++ (")" ++ stop).toList))) := by
    simp
  have hletters : ∀ c ∈ formal.toList, (c != '(') = true := by
    intro c hc
    simpa using fun h : c = '(' => hformal (h ▸ hc)
  have hparen : ∀ c ∈ ("(".toList ++ (actual.toList ++ (")" ++ stop).toList)).head?,
      (c != '(') = false := by
    rintro c ⟨⟩
    rfl
  rw [association?, hcs, List.isPrefixOf?_eq_some_iff_append_eq.2 rfl]
  simp only [Option.bind_eq_bind, Option.bind_some, takeWhile_append_of_boundary hletters hparen,
    dropWhile_append_of_boundary hletters hparen]
  rw [List.isPrefixOf?_eq_some_iff_append_eq.2 rfl]
  simp only [Option.bind_some, actual?_append .verilog actual hstop, String.ofList_toList,
    Option.pure_def]

end Dialect

/-! ## Formals in their order -/

/-- **What a formal may be**: a word, or in VHDL an element of one. -/
def Ref.IsFormal (d : Dialect) (r : Ref) : Prop :=
  IsWord r.name ∧ (r = .whole r.name ∨ d = .vhdl ∧ ∃ i, r = .bit r.name i)

namespace Ref.IsFormal

variable {d : Dialect} {r s t : Ref} {port : String}

lemma isSingle (h : r.IsFormal d) : r.IsSingle := by
  rcases h.2 with hr | ⟨-, i, hr⟩ <;> rw [hr] <;> trivial

lemma not_mem_text_verilog {c : Char} (h : r.IsFormal .verilog) (hc : Identifier.isWordChar c = false) :
    c ∉ (r.text .verilog).toList := by
  obtain ⟨hword, hr | ⟨⟨⟩, -⟩⟩ := h
  rw [hr]
  intro hmem
  cases hc.symm.trans (hword c hmem)

lemma isAscii_text (h : r.IsFormal d) : IsAscii (r.text d) := by
  obtain ⟨hword, hr | ⟨rfl, i, hr⟩⟩ := h
  · rw [hr]
    exact hword.isAscii
  · rw [hr]
    exact isAscii_append (isAscii_append (isAscii_append hword.isAscii (by decide))
      (IsWord.natural i).isAscii) (by decide)

/-- A formal with a parenthesis in it is an element of a port. -/
lemma exists_bit (h : r.IsFormal .vhdl) (hmem : '(' ∈ (r.text .vhdl).toList) :
    ∃ i, r = .bit r.name i := by
  obtain ⟨hword, hr | ⟨-, i, hr⟩⟩ := h
  · rw [hr] at hmem
    have hparen : Identifier.isWordChar '(' = false := by decide
    cases hparen.symm.trans (hword _ hmem)
  · exact ⟨i, hr⟩

lemma toList_elementKey (port : String) (i : ℕ) :
    (Dialect.vhdl.elementKey port i).toList
      = port.toList ++ '(' :: (Nat.toDigits 10 i ++ [')']) := by
  simp [Dialect.elementKey, Dialect.bracketOpen, Dialect.bracketClose]

/-- Only an element of a port is written as one. -/
lemma isWord_of_text (h : r.IsFormal .vhdl) {i : ℕ}
    (htext : r.text .vhdl = Dialect.vhdl.elementKey port i) : IsWord port := by
  have hchars := congrArg String.toList htext
  have hmem : '(' ∈ (r.text .vhdl).toList := by
    rw [hchars, toList_elementKey]
    simp
  obtain ⟨k, hr⟩ := h.exists_bit hmem
  -- read from the end, both are a parenthesis, digits, a parenthesis and the name
  have hdigits : ∀ n, ∀ c ∈ (Nat.toDigits 10 n).reverse, c.isDigit = true := fun n c hc =>
    IsWord.isDigit_of_mem (List.mem_reverse.1 hc)
  have hparen : ∀ cs : List Char, ∀ c ∈ ('(' :: cs).head?, c.isDigit = false := by
    rintro cs c ⟨⟩
    decide
  rw [hr] at hchars
  have hreverse := congrArg List.reverse
    ((toList_elementKey r.name k).symm.trans (hchars.trans (toList_elementKey port i)))
  simp only [List.reverse_append, List.reverse_cons, List.reverse_nil, List.nil_append,
    List.cons_append, List.append_assoc, List.cons.injEq, true_and] at hreverse
  obtain ⟨-, hname⟩ := append_inj_of_boundary (hdigits k) (hdigits i) (hparen _) (hparen _) hreverse
  have hname : r.name = port :=
    String.toList_inj.1 (List.reverse_injective (List.cons.inj hname).2)
  exact hname ▸ h.1

/-- What starts with the name of a port and a parenthesis is an element of this port. -/
lemma text_of_isPrefix (h : r.IsFormal .vhdl) (hport : IsWord port)
    (hstart : port.toList ++ ['('] <+: (r.text .vhdl).toList) :
    ∃ i, r.text .vhdl = Dialect.vhdl.elementKey port i := by
  obtain ⟨cs, hcs⟩ := hstart
  rw [List.append_assoc] at hcs
  have hmem : '(' ∈ (r.text .vhdl).toList := by
    rw [← hcs]
    simp
  obtain ⟨i, hr⟩ := h.exists_bit hmem
  have hparen : ∀ cs : List Char, ∀ c ∈ ('(' :: cs).head?, Identifier.isWordChar c = false := by
    rintro cs c ⟨⟩
    decide
  have hname : port = r.name := by
    rw [hr] at hcs
    have hchars := hcs.trans (toList_elementKey r.name i)
    exact String.toList_inj.1 (append_inj_of_boundary hport h.1 (hparen _) (hparen _) hchars).1
  refine ⟨i, ?_⟩
  rw [hr, hname]
  rfl

/-- **Between two elements of a port stand only elements of this port.** -/
lemma element_of_between (hr : r.IsFormal .vhdl) (hs : s.IsFormal .vhdl) {i j : ℕ}
    (hri : r.text .vhdl = Dialect.vhdl.elementKey port i)
    (htj : t.text .vhdl = Dialect.vhdl.elementKey port j) (hrs : r.text .vhdl < s.text .vhdl)
    (hst : s.text .vhdl < t.text .vhdl) : ∃ k, s.text .vhdl = Dialect.vhdl.elementKey port k := by
  have hstart : ∀ k, port.toList ++ ['('] <+: (Dialect.vhdl.elementKey port k).toList := by
    intro k
    refine ⟨Nat.toDigits 10 k ++ [')'], ?_⟩
    rw [toList_elementKey, List.append_assoc]
    rfl
  refine hs.text_of_isPrefix (hr.isWord_of_text hri) ?_
  exact isPrefix_of_between (hri ▸ hstart i) (htj ▸ hstart j) (String.lt_iff.1 hrs)
    (String.lt_iff.1 hst)

end Ref.IsFormal

/-! ## Lines -/

namespace PortMap

variable {d : Dialect} {definition label : String} {map : PortMap} {bs : List (String × Binding)}

/-- The formals of a port map, as they are written. -/
def formals (d : Dialect) (map : PortMap) : List String :=
  map.toList.map fun e => e.2.formal.text d

/-- The lines of an instance that have associations. -/
def associationLines (d : Dialect) (definition label : String) (map : PortMap) : List String :=
  ((map.instanceLines d definition label).drop d.headerLines).take map.toList.length

/-- **An instance lists a port map**: each association once, in the order of the bytes of the formals, and
so that they can be read back. -/
structure Listed (d : Dialect) (definition label : String) (map : PortMap) : Prop where
  /-- An instance without associations still has a line. -/
  count : (map.instanceLines d definition label).length
    = max (d.headerLines + map.toList.length) 1
  head : ∃ rest, (map.instanceLines d definition label).head?
    = some (d.instanceHead definition label ++ rest)
  reads : (map.associationLines d definition label).mapIdx (fun place line => d.association?
      (line.toList.drop (d.associationColumn (d.instanceHead definition label) place)))
    = map.toList.map fun e => some (e.2.formal.text d, e.2.actual.text d)
  /-- The last line closes the map, and the others end with a comma. -/
  ends : ∀ place line, (map.associationLines d definition label)[place]? = some line →
    (",".toList <:+ line.toList ↔ place + 1 < map.toList.length)
      ∧ (");".toList <:+ line.toList ↔ place + 1 = map.toList.length)
  keys_eq : map.keys = map.formals d
  ascending : map.keys.Pairwise fun a b => bytes a < bytes b
  /-- No association of another port stands between two elements of one. -/
  together : d = .vhdl → ∀ port i j (a b c : ℕ) between, a < b → b < c →
    (map.formals d)[a]? = some (d.elementKey port i) → (map.formals d)[b]? = some between →
    (map.formals d)[c]? = some (d.elementKey port j) → ∃ k, between = d.elementKey port k

/-- An entry of a port map has a formal, and this is its key. -/
lemma isFormal_of_mem (hword : ∀ b ∈ bs, IsWord b.1) {e : String × Association}
    (he : e ∈ (ofBindings d bs).toList) : e.1 = e.2.formal.text d ∧ e.2.formal.IsFormal d := by
  obtain ⟨b, hb, a, ha, rfl⟩ := mem_of_mem_ofBindings he
  refine ⟨rfl, ?_⟩
  rcases Dialect.formal_of_mem_associations ha with hformal | ⟨hd, i, hformal⟩
  · rw [Ref.IsFormal, hformal]
    exact ⟨hword b hb, .inl rfl⟩
  · rw [Ref.IsFormal, hformal]
    exact ⟨hword b hb, .inr ⟨hd, i, rfl⟩⟩

lemma texts_eq (hword : ∀ b ∈ bs, IsWord b.1) :
    (ofBindings d bs).texts d
      = (ofBindings d bs).toList.map fun e => (e.2.formal.text d, e.2.actual.text d) := by
  refine List.map_congr_left fun e he => ?_
  rw [(isFormal_of_mem hword he).1]

/-- In VHDL the lines of associations follow the header. -/
lemma associationLines_vhdl (definition label : String) (map : PortMap) :
    map.associationLines .vhdl definition label
      = Dialect.bracketed (indent ++ indent ++ "PORT MAP ( ") (Text.spaces 17) "," " );"
          (fun e => alignName e.1 ++ " => " ++ e.2) (map.texts .vhdl) := by
  have hcolumn : (indent ++ indent ++ "PORT MAP ( ").utf8ByteSize = 17 := by decide
  rw [associationLines, instanceLines, texts]
  split
  · next hempty =>
      rw [List.isEmpty_iff.1 hempty]
      rfl
  · dsimp only [Dialect.headerLines]
    rw [hcolumn, List.drop_succ_cons, List.drop_zero]
    exact List.take_of_length_le (by simp)

/-- In Verilog the first of them starts with the header. -/
lemma associationLines_verilog (definition label : String) (map : PortMap) :
    map.associationLines .verilog definition label
      = Dialect.bracketed (Dialect.verilog.instanceHead definition label)
          (Text.spaces (Dialect.verilog.instanceHead definition label).utf8ByteSize) "," ");"
          (fun e => "." ++ e.1 ++ "(" ++ e.2 ++ ")") (map.texts .verilog) := by
  rw [associationLines, instanceLines, texts]
  split
  · next hempty =>
      rw [List.isEmpty_iff.1 hempty]
      rfl
  · exact List.take_of_length_le (by simp [Dialect.headerLines])

lemma count_instanceLines (d : Dialect) (definition label : String) (map : PortMap) :
    (map.instanceLines d definition label).length = max (d.headerLines + map.toList.length) 1 := by
  cases d with
  | vhdl =>
      rw [instanceLines]
      split
      · next hempty =>
          rw [List.isEmpty_iff.1 hempty]
          rfl
      · simp only [texts, Dialect.headerLines, List.length_cons, Dialect.length_bracketed,
          List.length_map]
        omega
  | verilog =>
      rw [instanceLines]
      split
      · next hempty =>
          rw [List.isEmpty_iff.1 hempty]
          rfl
      · next hne =>
          have hpos : 0 < map.toList.length := List.length_pos_iff.2 (mt List.isEmpty_iff.2 hne)
          simp only [texts, Dialect.headerLines, Dialect.length_bracketed, List.length_map]
          omega

lemma head_instanceLines (d : Dialect) (definition label : String) (map : PortMap) :
    ∃ rest, (map.instanceLines d definition label).head?
      = some (d.instanceHead definition label ++ rest) := by
  cases d with
  | vhdl =>
      rw [instanceLines]
      split
      · exact ⟨";", rfl⟩
      · exact ⟨"", (congrArg some String.append_empty).symm⟩
  | verilog =>
      rw [instanceLines]
      split
      · exact ⟨");", rfl⟩
      · next hne =>
          obtain ⟨e, es, hes⟩ := List.exists_cons_of_ne_nil (mt List.isEmpty_iff.2 hne)
          rw [List.head?_eq_getElem?, Dialect.getElem?_bracketed, texts, hes]
          exact ⟨_, congrArg some (String.append_assoc ..)⟩

lemma reads_associationLines (hword : ∀ b ∈ bs, IsWord b.1) :
    ((ofBindings d bs).associationLines d definition label).mapIdx (fun place line => d.association?
        (line.toList.drop (d.associationColumn (d.instanceHead definition label) place)))
      = (ofBindings d bs).toList.map fun e => some (e.2.formal.text d, e.2.actual.text d) := by
  have hdrop : ∀ {lead rest : String} {column : ℕ}, lead.length = column →
      (lead ++ rest).toList.drop column = rest.toList := by
    intro lead rest column hcolumn
    rw [String.toList_append, List.drop_left' (by rwa [String.length_toList])]
  have htexts : ∀ x ∈ (ofBindings d bs).texts d, ∃ r : Ref, r.IsFormal d ∧ x.1 = r.text d := by
    intro x hx
    obtain ⟨e, he, rfl⟩ := List.mem_map.1 hx
    obtain ⟨hkey, hformal⟩ := isFormal_of_mem hword he
    exact ⟨_, hformal, hkey⟩
  have hvalues : ((ofBindings d bs).toList.map fun e => some (e.2.formal.text d, e.2.actual.text d))
      = ((ofBindings d bs).texts d).map some := by
    rw [texts_eq hword, List.map_map]
    rfl
  rw [hvalues]
  cases d with
  | vhdl =>
      rw [associationLines_vhdl]
      refine Dialect.mapIdx_bracketed fun i x hx stop hstop => ?_
      obtain ⟨r, hr, hkey⟩ := htexts x hx
      rw [String.append_assoc, hdrop]
      · refine Dialect.association?_vhdl ?_ ?_
        · rw [hkey]
          exact Ref.blank_not_mem_text hr.isSingle hr.1
        · rcases List.mem_pair.1 hstop with rfl | rfl <;> decide
      · split <;> rfl
  | verilog =>
      rw [associationLines_verilog]
      refine Dialect.mapIdx_bracketed fun i x hx stop hstop => ?_
      obtain ⟨r, hr, hkey⟩ := htexts x hx
      rw [String.append_assoc, hdrop]
      · refine Dialect.association?_verilog ?_ ?_
        · rw [hkey]
          exact hr.not_mem_text_verilog (by decide)
        · rcases List.mem_pair.1 hstop with rfl | rfl <;> decide
      · rw [Dialect.associationColumn]
        split
        · rfl
        · simp [Text.spaces]

/-- What ends with a comma, or with the end of the map. -/
lemma ends_iff {text last : String} (hlast : ");".toList <:+ last.toList) {p : Prop} [Decidable p] :
    (",".toList <:+ (text ++ if p then last else ",").toList ↔ ¬ p)
      ∧ (");".toList <:+ (text ++ if p then last else ",").toList ↔ p) := by
  have hends : ∀ {c : Char} {cs : List Char}, c ≠ ';' → ¬ ([c] <:+ cs ∧ ");".toList <:+ cs) := by
    rintro c cs hc ⟨hcomma, hclose⟩
    have hsemicolon : [';'] <:+ cs := (by decide : [';'] <:+ ");".toList).trans hclose
    rw [List.singleton_suffix_iff_getLast?_eq_some] at hcomma hsemicolon
    exact hc (Option.some.inj (hcomma.symm.trans hsemicolon))
  rw [String.toList_append]
  by_cases hp : p
  · rw [if_pos hp]
    have hclose : ");".toList <:+ text.toList ++ last.toList :=
      hlast.trans (List.suffix_append _ _)
    exact ⟨⟨fun hcomma => (hends (by decide) ⟨hcomma, hclose⟩).elim, fun hnot => absurd hp hnot⟩,
      fun _ => hp, fun _ => hclose⟩
  · rw [if_neg hp]
    have hcomma : ",".toList <:+ text.toList ++ ",".toList := List.suffix_append _ _
    exact ⟨⟨fun _ => hp, fun _ => hcomma⟩,
      fun hclose => (hends (by decide) ⟨hcomma, hclose⟩).elim, fun h => absurd h hp⟩

lemma ends_associationLines (map : PortMap) {place : ℕ} {line : String}
    (h : (map.associationLines d definition label)[place]? = some line) :
    (",".toList <:+ line.toList ↔ place + 1 < map.toList.length)
      ∧ (");".toList <:+ line.toList ↔ place + 1 = map.toList.length) := by
  have hlength : (map.texts d).length = map.toList.length := List.length_map _
  obtain ⟨first, later, last, text, hlines, hlast⟩ : ∃ first later last text,
      map.associationLines d definition label
        = Dialect.bracketed first later "," last text (map.texts d)
      ∧ ");".toList <:+ last.toList := by
    cases d with
    | vhdl => exact ⟨_, _, _, _, associationLines_vhdl definition label map, by decide⟩
    | verilog => exact ⟨_, _, _, _, associationLines_verilog definition label map, by decide⟩
  rw [hlines, Dialect.getElem?_bracketed] at h
  obtain ⟨x, hx, rfl⟩ := Option.map_eq_some_iff.1 h
  obtain ⟨hlt, -⟩ := List.getElem?_eq_some_iff.1 hx
  refine ⟨(ends_iff hlast).1.trans ?_, (ends_iff hlast).2.trans ?_⟩
  · omega
  · rw [hlength]

lemma keys_eq_formals (hword : ∀ b ∈ bs, IsWord b.1) :
    (ofBindings d bs).keys = (ofBindings d bs).formals d :=
  List.map_congr_left fun _ he => (isFormal_of_mem hword he).1

/-- **An instance lists the port map of bindings**, where ports are words. -/
theorem listed_ofBindings (hword : ∀ b ∈ bs, IsWord b.1) (definition label : String) :
    (ofBindings d bs).Listed d definition label := by
  have hkeys := keys_eq_formals (d := d) hword
  have hsorted : ((ofBindings d bs).formals d).Pairwise (· < ·) := by
    rw [← hkeys, Dictionary.keys, List.pairwise_map]
    exact (ofBindings d bs).ascending
  have hformal : ∀ {text : String} {i : ℕ}, ((ofBindings d bs).formals d)[i]? = some text →
      ∃ r : Ref, r.IsFormal d ∧ r.text d = text := by
    intro text i htext
    obtain ⟨e, he, rfl⟩ := List.mem_map.1 (List.mem_of_getElem? htext)
    exact ⟨_, (isFormal_of_mem hword he).2, rfl⟩
  refine ⟨count_instanceLines _ _ _ _, head_instanceLines _ _ _ _, reads_associationLines hword,
    fun _ _ => ends_associationLines _, hkeys, ?_, ?_⟩
  · rw [hkeys]
    refine hsorted.imp_of_mem fun {x y} hx hy hlt => ?_
    obtain ⟨i, hi⟩ := List.getElem?_of_mem hx
    obtain ⟨j, hj⟩ := List.getElem?_of_mem hy
    obtain ⟨r, hr, rfl⟩ := hformal hi
    obtain ⟨s, hs, rfl⟩ := hformal hj
    exact bytes_lt_bytes hr.isAscii_text hs.isAscii_text hlt
  · rintro rfl port i j a b c between hab hbc ha hb hc
    obtain ⟨r, hr, hri⟩ := hformal ha
    obtain ⟨s, hs, rfl⟩ := hformal hb
    obtain ⟨t, -, htj⟩ := hformal hc
    obtain ⟨ha, hea⟩ := List.getElem?_eq_some_iff.1 ha
    obtain ⟨hb, heb⟩ := List.getElem?_eq_some_iff.1 hb
    obtain ⟨hc, hec⟩ := List.getElem?_eq_some_iff.1 hc
    have hrs := List.pairwise_iff_getElem.1 hsorted a b ha hb hab
    have hst := List.pairwise_iff_getElem.1 hsorted b c hb hc hbc
    rw [hea, heb, ← hri] at hrs
    rw [heb, hec, ← htj] at hst
    exact hr.element_of_between hs hri htj hrs hst

/-! ## All port maps -/

/-- **Instances list their port maps**, in either language, whatever they and their definitions are
called: that of an instance of a circuit, that of the top circuit on any board, and that of a placed
multiplexer. -/
theorem listed_instances (d : Dialect) (definition label : String) :
    (∀ (nl : Netlist) (c : Component) (child : Netlist) bindings,
      (nl.instanceBindings c child).outcome = .ok bindings →
        (ofBindings d bindings).Listed d definition label)
    ∧ (∀ (nl : Netlist) (board : Board), ∃ bindings,
      (nl.boardBindings board).outcome = .ok bindings
        ∧ (ofBindings d bindings).Listed d definition label)
    ∧ (∀ catalog : UInt32 → Option Board.Mapping, ∃ board : Board, board.bubble? = catalog)
    ∧ ∀ (nl : Netlist) (c : Component) bindings,
      (Multiplexer.bindings nl c).outcome = .ok bindings →
        (ofBindings d bindings).Listed d definition label := by
  have hlisted : ∀ {bindings : List (String × Binding)} {names : List String},
      (bindings.map Prod.fst).Perm names → (∀ name ∈ names, IsWord name) →
        (ofBindings d bindings).Listed d definition label := by
    intro bindings names hperm hword
    exact listed_ofBindings
      (fun b hb => hword b.1 (hperm.subset (List.mem_map_of_mem hb))) definition label
  refine ⟨fun nl c child bindings h => ?_, fun nl board => ?_, Board.exists_bubble?_eq,
    fun nl c bindings h => ?_⟩
  · exact hlisted (Netlist.perm_instanceBindings h) fun _ => Netlist.isWord_of_mem_ports
  · exact ⟨_, rfl, hlisted (Netlist.perm_boardBindings rfl) fun _ => Netlist.isWord_of_mem_ports⟩
  · refine listed_ofBindings (fun b hb => ?_) definition label
    obtain ⟨p, hp, binding, -, rfl⟩ :=
      exists_mem_of_forall₂ (Multiplexer.bindings_eq_ok_iff.1 h) hb
    have hnames : ∀ p ∈ Multiplexer.terminalPorts.zipIdx, IsWord p.1 := by decide
    exact hnames p hp

/-- A pin of eleven bits, between two others whose names start as its own does: the last of its elements
comes third. -/
theorem listed_instances_eleven :
    let nl : Netlist := { nets := #[{ width := 1 }] }
    let c : Component :=
      { kind := .instance 0 false
        terminals := [
          { direction := .input, label := some "x_0", bits := [some ⟨0, 0⟩] },
          { direction := .input, label := some "x"
            bits := some ⟨0, 0⟩ :: List.replicate 10 none },
          { direction := .input, label := some "X", bits := [some ⟨0, 0⟩] }] }
    let child : Netlist :=
      { inputs := [
          { label := "x_0", terminals := [.unconnected .output 1] },
          { label := "x", terminals := [.unconnected .output 11] },
          { label := "X", terminals := [.unconnected .output 1] }] }
    ∃ bindings, (nl.instanceBindings c child).outcome = .ok bindings
      ∧ (ofBindings .vhdl bindings).keys = ["X", "x(0)", "x(1)", "x(10)", "x(2)", "x(3)", "x(4)",
        "x(5)", "x(6)", "x(7)", "x(8)", "x(9)", "x_0"]
      ∧ (ofBindings .vhdl bindings).Listed .vhdl "unit" "unit_1" := by
  intro nl c child
  exact ⟨_, rfl, by decide, (listed_instances .vhdl "unit" "unit_1").1 nl c child _ rfl⟩

end PortMap

end Netscribe
