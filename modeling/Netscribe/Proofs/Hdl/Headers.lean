import Mathlib.Data.List.Basic
import Netscribe.Hdl.Module
import Netscribe.Proofs.Data.Lists
import Netscribe.Proofs.Hdl.Bracketed
import Netscribe.Proofs.Hdl.Statement

/-!
# Lines that open a component or an instance

A VHDL architecture declares a component in a block of lines, and instantiates it in another.  The
first line of a block has the name of the definition, and no other line looks like it: lines of a port
clause or a port map are indented further, remarks start with hyphens, and an assignment has an arrow
after its target.

* `componentName?`, `instanceName?` — the definition that a line declares, or instantiates.
* `Statement.definitions`, `Statement.IsLegible` — what a statement instantiates, and what it takes
  for this to be read off.
* `names_flatMap_lines`, `names_declarationLines` — the names that are read off.
-/

namespace Netscribe

/-! ## Readers -/

/-- The definition that a VHDL line opens a component declaration for. -/
def componentName? (line : String) : Option String :=
  ("   COMPONENT ".toList.isPrefixOf? line.toList).map String.ofList

/-- **The definition that a VHDL line opens an instance of**: the line has a label, a colon and the
name. -/
def instanceName? (line : String) : Option String := do
  let cs ← "   ".toList.isPrefixOf? line.toList
  let name ← " : ".toList.isPrefixOf? (cs.dropWhile Identifier.isWordChar)
  if cs.takeWhile Identifier.isWordChar = [] then none
  else some (String.ofList (name.takeWhile Identifier.isWordChar))

/-! ## Lines that open nothing -/

/-- A line that is indented further than a statement is. -/
def IsDeep (line : String) : Prop :=
  "    ".toList <+: line.toList

instance (line : String) : Decidable (IsDeep line) :=
  inferInstanceAs (Decidable ("    ".toList <+: line.toList))

lemma isDeep_append {lead : String} (h : IsDeep lead) (text : String) : IsDeep (lead ++ text) := by
  rw [IsDeep, String.toList_append]
  exact h.trans (List.prefix_append _ _)

lemma isDeep_of_mem_bracketed {α : Type} {first later between last line : String} {text : α → String}
    {xs : List α} (hfirst : IsDeep first) (hlater : IsDeep later)
    (h : line ∈ Dialect.bracketed first later between last text xs) : IsDeep line := by
  obtain ⟨x, -, lead, hlead, stop, -, rfl⟩ := Dialect.exists_of_mem_bracketed h
  rcases List.mem_pair.1 hlead with rfl | rfl
  · exact isDeep_append (isDeep_append hfirst _) _
  · exact isDeep_append (isDeep_append hlater _) _

lemma IsDeep.componentName?_eq_none {line : String} (h : IsDeep line) :
    componentName? line = none := by
  obtain ⟨cs, hcs⟩ := h
  rw [componentName?, ← hcs]
  rfl

/-- Where a statement would have its label there is something else. -/
lemma instanceName?_eq_none {line : String} {c : Char} {cs : List Char}
    (h : line.toList = "   ".toList ++ c :: cs) (hc : Identifier.isWordChar c = false) :
    instanceName? line = none := by
  simp [instanceName?, h, List.isPrefixOf?, hc]

lemma IsDeep.instanceName?_eq_none {line : String} (h : IsDeep line) :
    instanceName? line = none := by
  obtain ⟨cs, hcs⟩ := h
  exact Netscribe.instanceName?_eq_none (c := ' ') hcs.symm (by decide)

/-- A remark starts with a hyphen. -/
lemma instanceName?_heading {title line : String} (h : line ∈ Lines.heading .vhdl title) :
    instanceName? line = none := by
  have hhyphen : ∀ {text : String}, text.toList.head? = some '-' →
      instanceName? (Text.spaces indentation ++ text) = none := by
    intro text htext
    obtain ⟨cs, hcs⟩ := List.head?_eq_some_iff.1 htext
    have hline : (Text.spaces indentation ++ text).toList = "   ".toList ++ '-' :: cs := by
      rw [String.toList_append, hcs]
      rfl
    exact instanceName?_eq_none hline (by decide)
  rw [Lines.heading, Dialect.remark] at h
  simp only [List.mem_cons, List.mem_append, List.mem_map, List.not_mem_nil, or_false] at h
  rcases h with rfl | rfl | ⟨text, -, rfl⟩ | rfl
  · rfl
  · exact hhyphen rfl
  · rw [String.append_assoc, String.append_assoc]
    refine hhyphen ?_
    rw [String.toList_append]
    rfl
  · exact hhyphen rfl

/-! ## Statements -/

/-- After the name of a target comes a bracket or a blank, and no colon. -/
lemma not_colon_of_target (r : Ref) (blanks : ℕ) (cs : List Char) :
    let rest := r.suffix .vhdl ++ (List.replicate (blanks + 1) ' ' ++ ("<= ".toList ++ cs))
    (∀ c ∈ rest.head?, Identifier.isWordChar c = false) ∧ " : ".toList.isPrefixOf? rest = none := by
  cases hsuffix : r.suffix .vhdl with
  | cons c suffix =>
      have hc : c ∈ Dialect.vhdl.bracketOpen.toList :=
        r.mem_bracketOpen_of_head? (by rw [hsuffix]; rfl)
      obtain rfl : c = '(' := List.mem_singleton.1 hc
      refine ⟨?_, rfl⟩
      rintro c ⟨⟩
      decide
  | nil =>
      constructor
      · rintro c ⟨⟩
        decide
      · cases blanks <;> rfl

lemma instanceName?_assign {a : Assignment} (h : IsWord a.target.name) :
    instanceName? (a.line .vhdl) = none := by
  have hcs : (a.line .vhdl).toList = "   ".toList ++ (a.target.name.toList
      ++ (a.target.suffix .vhdl
        ++ (List.replicate (nameColumn - (a.target.text .vhdl).length + 1) ' '
          ++ ("<= ".toList ++ (a.source.text .vhdl ++ ";").toList)))) := by
    rw [← List.append_assoc a.target.name.toList, ← Ref.toList_text, ← toList_padRight_blank]
    simp [Assignment.line, alignName, indent, Text.spaces, indentation, Dialect.assignLead,
      Dialect.assignOperator]
  obtain ⟨hword, hcolon⟩ := not_colon_of_target a.target
    (nameColumn - (a.target.text .vhdl).length) (a.source.text .vhdl ++ ";").toList
  rw [instanceName?, hcs, List.isPrefixOf?_eq_some_iff_append_eq.2 rfl]
  simp only [Option.bind_eq_bind, Option.bind_some, dropWhile_append_of_boundary h hword, hcolon,
    Option.bind_none]

/-- A header ends after the name of the definition, or with a semicolon. -/
lemma instanceName?_header {label definition rest : String} (hlabel : IsWord label)
    (hne : label ≠ "") (hdefinition : IsWord definition)
    (hrest : ∀ c ∈ rest.toList.head?, Identifier.isWordChar c = false) :
    instanceName? (indent ++ label ++ " : " ++ definition ++ rest) = some definition := by
  have hcs : (indent ++ label ++ " : " ++ definition ++ rest).toList
      = "   ".toList ++ (label.toList ++ (" : ".toList ++ (definition.toList ++ rest.toList))) := by
    simp [indent, Text.spaces, indentation]
  have hcolon : ∀ c ∈ (" : ".toList ++ (definition.toList ++ rest.toList)).head?,
      Identifier.isWordChar c = false := by
    rintro c ⟨⟩
    decide
  have hne : label.toList ≠ [] := fun h => hne (String.toList_inj.1 h)
  rw [instanceName?, hcs, List.isPrefixOf?_eq_some_iff_append_eq.2 rfl]
  simp only [Option.bind_eq_bind, Option.bind_some, dropWhile_append_of_boundary hlabel hcolon,
    takeWhile_append_of_boundary hlabel hcolon, if_neg hne]
  rw [List.isPrefixOf?_eq_some_iff_append_eq.2 rfl, Option.bind_some,
    takeWhile_append_of_boundary hdefinition hrest, String.ofList_toList]

namespace Statement

/-- **The definitions that a statement instantiates.** -/
def definitions : Statement → List String
  | .assign _ => []
  | .instance definition _ _ => [definition]

/-- A statement whose names are words, and an instance of which has a label. -/
def IsLegible : Statement → Prop
  | .assign a => IsWord a.target.name
  | .instance definition label _ => IsWord definition ∧ IsWord label ∧ label ≠ ""

/-- What a statement instantiates is read off its lines. -/
lemma names_lines {s : Statement} (h : s.IsLegible) :
    (s.lines .vhdl).filterMap instanceName? = s.definitions := by
  cases s with
  | assign a => simp [lines, instanceName?_assign h, definitions]
  | «instance» definition label bindings =>
      obtain ⟨hdefinition, hlabel, hne⟩ := h
      rw [lines, PortMap.instanceLines]
      split
      · have hsemicolon : ∀ c ∈ ";".toList.head?, Identifier.isWordChar c = false := by
          rintro c ⟨⟩
          decide
        rw [List.filterMap_cons_some (instanceName?_header hlabel hne hdefinition hsemicolon)]
        rfl
      · have hheader : instanceName? (indent ++ label ++ " : " ++ definition ++ "")
            = some definition := instanceName?_header hlabel hne hdefinition (by rintro c ⟨⟩)
        rw [String.append_empty] at hheader
        rw [List.filterMap_cons_some hheader, List.filterMap_eq_nil_iff.2 fun line hline => ?_]
        · rfl
        · exact (isDeep_of_mem_bracketed (by decide) (by decide) hline).instanceName?_eq_none

end Statement

/-! ## Sections and declarations -/

lemma names_sectionLines {s : Section} (h : ∀ statement ∈ s.statements, statement.IsLegible) :
    (s.lines .vhdl).filterMap instanceName? = s.statements.flatMap Statement.definitions := by
  have hstatements : (s.statements.flatMap (Statement.lines .vhdl)).filterMap instanceName?
      = s.statements.flatMap Statement.definitions := by
    rw [List.filterMap_flatMap]
    exact List.flatMap_congr fun statement hstatement =>
      Statement.names_lines (h statement hstatement)
  rw [Section.lines, List.filterMap_append, hstatements]
  cases s.title with
  | none => rfl
  | some title =>
      have htitle : (Lines.heading .vhdl title).filterMap instanceName? = [] :=
        List.filterMap_eq_nil_iff.2 fun _ => instanceName?_heading
      exact congrArg (· ++ _) htitle

/-- **The names that the instances of some sections have in their first lines** are the definitions
that their statements instantiate. -/
lemma names_flatMap_lines {sections : List Section}
    (h : ∀ statement ∈ sections.flatMap Section.statements, statement.IsLegible) :
    (sections.flatMap (Section.lines .vhdl)).filterMap instanceName?
      = (sections.flatMap Section.statements).flatMap Statement.definitions := by
  rw [List.filterMap_flatMap, List.flatMap_assoc]
  exact List.flatMap_congr fun s hs => names_sectionLines fun statement hstatement =>
    h statement (List.mem_flatMap.2 ⟨s, hs, hstatement⟩)

lemma names_componentDeclaration (name : String) (ports : List Port) :
    (Dialect.vhdl.componentDeclaration name ports).filterMap componentName? = [name] := by
  have hheader : componentName? (indent ++ "COMPONENT " ++ name) = some name := by
    have hcs : (indent ++ "COMPONENT " ++ name).toList = "   COMPONENT ".toList ++ name.toList := by
      rw [String.toList_append]
      rfl
    rw [componentName?, hcs, List.isPrefixOf?_eq_some_iff_append_eq.2 rfl, Option.map_some,
      String.ofList_toList]
  have hports : (Dialect.vhdlPortClause (2 * indentation) ports).filterMap componentName? = [] :=
    List.filterMap_eq_nil_iff.2 fun line hline =>
      (isDeep_of_mem_bracketed (by decide) (by decide) hline).componentName?_eq_none
  rw [Dialect.componentDeclaration, List.filterMap_cons_some hheader, List.filterMap_append, hports]
  rfl

/-- The names that declarations have in their first lines. -/
lemma names_declarationLines (declarations : List Declaration) :
    (declarationLines .vhdl declarations).filterMap componentName?
      = declarations.map Declaration.name := by
  rw [declarationLines, List.filterMap_flatMap, List.map_eq_flatMap]
  exact List.flatMap_congr fun declaration _ => names_componentDeclaration _ _

end Netscribe
