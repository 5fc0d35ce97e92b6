import Mathlib.Data.Int.Notation
import Netscribe.Proofs.Hdl.Bracketed
import Netscribe.Proofs.Hdl.Formula

/-!
# Interfaces read back

The interface of a definition has a line for each port, where VHDL gives direction, name and type at
once and Verilog the name alone, with a declaration further down.  Names are padded to a column that
they may be too long for, and a width of one is not written.  Still each port can be read back: a name
ends where its word does, and so do keywords and types.

* `vhdlPort?`, `verilogPort?`, `Dialect.ports?` — readers for a port and for all ports of an interface.
  The forms are written out in them once more, as in `Formula`.
* `Port.declared` — what a declaration tells of a port.
* `Dialect.ports?_interface` — the ports are read back.
* `unclosed`, `Dialect.unclosed_take_interface` — where the parenthesis around the ports is closed.
* **`Dialect.interface_tells_ports`** — the text of an interface determines the ports.
-/

namespace Netscribe

/-! ## Readers -/

/-- The word that characters start with. -/
def word (cs : List Char) : List Char :=
  cs.takeWhile Identifier.isWordChar

/-- What comes after the word and the blanks behind it. -/
def afterWord (cs : List Char) : List Char :=
  (cs.dropWhile Identifier.isWordChar).dropWhile (· == ' ')

/-- The direction that a keyword stands for. -/
def Dialect.direction? : Dialect → List Char → Option Direction
  | .vhdl, ['I', 'N'] => some .input
  | .vhdl, ['O', 'U', 'T'] => some .output
  | .vhdl, ['I', 'N', 'O', 'U', 'T'] => some .inout
  | .verilog, ['i', 'n', 'p', 'u', 't'] => some .input
  | .verilog, ['o', 'u', 't', 'p', 'u', 't'] => some .output
  | .verilog, ['i', 'n', 'o', 'u', 't'] => some .inout
  | _, _ => none

/-- The width of the VHDL type that characters start with. -/
def vhdlWidth? (cs : List Char) : Option ℕ :=
  if word cs = "std_logic".toList then some 1
  else if word cs = "std_logic_vector".toList then do
    let cs ← "( ".toList.isPrefixOf? (afterWord cs)
    let high ← number? (cs.takeWhile Char.isDigit)
    return high + 1
  else none

/-- **The port that a line of a VHDL port clause declares.** -/
def vhdlPort? (line : String) : Option Port := do
  let cs := line.toList.drop 10
  let typed ← ": ".toList.isPrefixOf? (afterWord cs)
  let direction ← Dialect.vhdl.direction? (word typed)
  let width ← vhdlWidth? (afterWord typed)
  return ⟨direction, String.ofList (word cs), width⟩

/-- The width that a Verilog range gives, and what comes after the range. -/
def verilogWidth? : List Char → Option (ℕ × List Char)
  | '[' :: cs => do
    let high ← number? (cs.takeWhile Char.isDigit)
    let rest ← ":0] ".toList.isPrefixOf? (cs.dropWhile Char.isDigit)
    return (high + 1, rest)
  | cs => some (1, cs)

/-- **The port that a line of a Verilog module declares.** -/
def verilogPort? (line : String) : Option Port := do
  let cs := line.toList.drop 3
  let direction ← Dialect.verilog.direction? (word cs)
  let (width, name) ← verilogWidth? (afterWord cs)
  return ⟨direction, String.ofList (word name), width⟩

/-- **The ports that an interface declares**: VHDL has them between the header and the last line, and
Verilog after the first empty line. -/
def Dialect.ports? (d : Dialect) (lines : List String) : Option (List Port) :=
  match d with
  | .vhdl => ((lines.drop 4).dropLast).mapM vhdlPort?
  | .verilog => (lines.dropWhile (· ≠ "")).tail.mapM verilogPort?

/-- A port as its declaration tells it: what has no bits is a single wire. -/
def Port.declared (p : Port) : Port :=
  { p with width := max p.width 1 }

/-! ## Words -/

lemma word_append {w rest : List Char} (hw : ∀ c ∈ w, Identifier.isWordChar c = true)
    (hrest : ∀ c ∈ rest.head?, Identifier.isWordChar c = false) : word (w ++ rest) = w :=
  takeWhile_append_of_boundary hw hrest

lemma afterWord_append {w rest : List Char} (hw : ∀ c ∈ w, Identifier.isWordChar c = true)
    (hrest : ∀ c ∈ rest.head?, Identifier.isWordChar c = false) :
    afterWord (w ++ rest) = rest.dropWhile (· == ' ') := by
  rw [afterWord, dropWhile_append_of_boundary hw hrest]

/-! ## Declarations -/

lemma isWord_directionKeyword (d : Dialect) (direction : Direction) :
    IsWord (d.directionKeyword direction) := by
  cases d <;> cases direction <;> decide

lemma direction?_directionKeyword (d : Dialect) (direction : Direction) :
    d.direction? (d.directionKeyword direction).toList = some direction := by
  cases d <;> cases direction <;> rfl

lemma takeWhile_isDigit_append (n : ℕ) {rest : List Char}
    (hrest : ∀ c ∈ rest.head?, c.isDigit = false) :
    (Nat.toDigits 10 n ++ rest).takeWhile Char.isDigit = Nat.toDigits 10 n :=
  takeWhile_append_of_boundary (fun _ => IsWord.isDigit_of_mem) hrest

lemma vhdlWidth?_vhdlType (width : ℕ) {rest : List Char}
    (hrest : ∀ c ∈ rest.head?, Identifier.isWordChar c = false) :
    vhdlWidth? ((Dialect.vhdlType width).toList ++ rest) = some (max width 1) := by
  rw [Dialect.vhdlType]
  split
  · next hle =>
      have htype : IsWord "std_logic" := by decide
      have hword : word ("std_logic".toList ++ rest) = "std_logic".toList := word_append htype hrest
      rw [vhdlWidth?, if_pos hword, Nat.max_eq_right hle]
  · next hle =>
      have hsplit : ("std_logic_vector( " ++ toString (width - 1) ++ " DOWNTO 0 )").toList ++ rest
          = "std_logic_vector".toList
            ++ ("( ".toList ++ (Nat.toDigits 10 (width - 1) ++ (" DOWNTO 0 )".toList ++ rest))) := by
        simp
      have hopen : ∀ c ∈ ("( ".toList ++ (Nat.toDigits 10 (width - 1)
          ++ (" DOWNTO 0 )".toList ++ rest))).head?, Identifier.isWordChar c = false := by
        rintro c ⟨⟩
        decide
      have hblank : ∀ c ∈ (" DOWNTO 0 )".toList ++ rest).head?, c.isDigit = false := by
        rintro c ⟨⟩
        decide
      have htype : IsWord "std_logic_vector" := by decide
      rw [hsplit, vhdlWidth?, word_append htype hopen, if_neg (by decide), if_pos rfl,
        afterWord_append htype hopen]
      show ("( ".toList.isPrefixOf? ("( ".toList ++ _)).bind _ = _
      rw [List.isPrefixOf?_eq_some_iff_append_eq.2 rfl, Option.bind_some,
        takeWhile_isDigit_append _ hblank, number?_toDigits]
      show some (width - 1 + 1) = _
      rw [Nat.sub_add_cancel (by omega), Nat.max_eq_left (by omega)]

/-- What stands in a line of a port clause after its lead. -/
lemma drop_vhdlPort (p : Port) {lead stop : String} (hlead : lead.toList.length = 10) :
    (lead ++ Dialect.vhdlPort p ++ stop).toList.drop 10
      = p.name.toList ++ (List.replicate (nameColumn - p.name.length + 1) ' ' ++ (": ".toList
        ++ ((Dialect.vhdl.directionKeyword p.direction).toList
          ++ (List.replicate (5 - (Dialect.vhdl.directionKeyword p.direction).length + 1) ' '
            ++ ((Dialect.vhdlType p.width).toList ++ stop.toList))))) := by
  rw [String.append_assoc, String.toList_append, List.drop_left' hlead]
  simp only [Dialect.vhdlPort, alignName, String.toList_append, List.append_assoc]
  show (Text.padRight nameColumn p.name).toList ++ ' ' :: (": ".toList ++ ((Text.padRight 5
    (Dialect.vhdl.directionKeyword p.direction)).toList ++ ' ' :: _)) = _
  rw [toList_padRight_blank, toList_padRight_blank]
  rfl

lemma vhdlPort?_line {p : Port} (hp : IsWord p.name) {lead stop : String}
    (hlead : lead.toList.length = 10)
    (hstop : ∀ c ∈ stop.toList.head?, Identifier.isWordChar c = false) :
    vhdlPort? (lead ++ Dialect.vhdlPort p ++ stop) = some p.declared := by
  have htype : ∀ c ∈ ((Dialect.vhdlType p.width).toList ++ stop.toList).head?, c ≠ ' ' := by
    intro c hc
    rw [Dialect.vhdlType] at hc
    split at hc <;> obtain rfl : 's' = c := by simpa using hc
    all_goals decide
  have hkeyword := isWord_directionKeyword .vhdl p.direction
  rw [vhdlPort?, drop_vhdlPort p hlead, word_append hp (isWordChar_head?_blanks _),
    afterWord_append hp (isWordChar_head?_blanks _), dropWhile_blanks _ (by rintro c ⟨⟩; decide),
    List.isPrefixOf?_eq_some_iff_append_eq.2 rfl]
  simp only [Option.bind_eq_bind, Option.bind_some, word_append hkeyword (isWordChar_head?_blanks _),
    afterWord_append hkeyword (isWordChar_head?_blanks _), dropWhile_blanks _ htype,
    direction?_directionKeyword, vhdlWidth?_vhdlType _ hstop, String.ofList_toList]
  rfl

lemma verilogWidth?_verilogRange (width : ℕ) {rest : List Char} (hrest : ∀ c ∈ rest.head?, c ≠ '[') :
    verilogWidth? ((Dialect.verilogRange width).toList ++ rest) = some (max width 1, rest) := by
  rw [Dialect.verilogRange]
  split
  · next hle =>
      rw [Nat.max_eq_right hle]
      show verilogWidth? rest = _
      rw [verilogWidth?.eq_def]
      split
      · exact absurd rfl (hrest '[' rfl)
      · rfl
  · next hle =>
      have hsplit : ("[" ++ toString (width - 1) ++ ":0] ").toList ++ rest
          = '[' :: (Nat.toDigits 10 (width - 1) ++ (":0] ".toList ++ rest)) := by
        simp
      have hcolon : ∀ c ∈ (":0] ".toList ++ rest).head?, c.isDigit = false := by
        rintro c ⟨⟩
        decide
      rw [hsplit, verilogWidth?, takeWhile_isDigit_append _ hcolon,
        dropWhile_append_of_boundary (fun _ => IsWord.isDigit_of_mem) hcolon, number?_toDigits,
        List.isPrefixOf?_eq_some_iff_append_eq.2 rfl]
      show some (width - 1 + 1, rest) = _
      rw [Nat.sub_add_cancel (by omega), Nat.max_eq_left (by omega)]

lemma verilogPort?_line {p : Port} (hp : IsWord p.name) :
    verilogPort? (Dialect.verilogPort p) = some p.declared := by
  have hkeyword := isWord_directionKeyword .verilog p.direction
  have hend : ∀ c ∈ ";".toList.head?, Identifier.isWordChar c = false := by
    rintro c ⟨⟩
    decide
  -- a name starts with a word character, and an empty one leaves the semicolon
  have hname : ∀ c ∈ (p.name.toList ++ ";".toList).head?, c ≠ '[' ∧ c ≠ ' ' := by
    intro c hc
    have hc : Identifier.isWordChar c = true ∨ c = ';' := by
      cases hchars : p.name.toList with
      | nil =>
          rw [hchars] at hc
          exact .inr (Option.some.inj hc).symm
      | cons x xs =>
          rw [hchars] at hc
          obtain rfl := Option.some.inj hc
          exact .inl (hp x (hchars ▸ List.mem_cons_self))
    constructor <;> rintro rfl <;> revert hc <;> decide
  have hrange : ∀ c ∈ ((Dialect.verilogRange p.width).toList
      ++ (p.name.toList ++ ";".toList)).head?, c ≠ ' ' := by
    intro c hc
    rw [Dialect.verilogRange] at hc
    split at hc
    · exact (hname c hc).2
    · obtain rfl : '[' = c := by simpa using hc
      decide
  have hcs : (Dialect.verilogPort p).toList.drop 3
      = (Dialect.verilog.directionKeyword p.direction).toList
        ++ (List.replicate (6 - (Dialect.verilog.directionKeyword p.direction).length + 1) ' '
          ++ ((Dialect.verilogRange p.width).toList ++ (p.name.toList ++ ";".toList))) := by
    simp only [Dialect.verilogPort, String.toList_append, List.append_assoc]
    have hindent : indent.toList.length = 3 := rfl
    rw [List.drop_left' hindent]
    show (Text.padRight 6 (Dialect.verilog.directionKeyword p.direction)).toList ++ ' ' :: _ = _
    rw [toList_padRight_blank]
    rfl
  rw [verilogPort?, hcs, word_append hkeyword (isWordChar_head?_blanks _),
    afterWord_append hkeyword (isWordChar_head?_blanks _), dropWhile_blanks _ hrange,
    direction?_directionKeyword, Option.bind_eq_bind, Option.bind_some,
    verilogWidth?_verilogRange _ fun c hc => (hname c hc).1]
  show some _ = _
  rw [word_append hp hend, String.ofList_toList]
  rfl

/-! ## Parentheses -/

/-- **How many parentheses a text leaves open.** -/
def unclosed (text : String) : ℤ :=
  text.toList.count '(' - text.toList.count ')'

@[simp] lemma unclosed_empty : unclosed "" = 0 :=
  rfl

@[simp] lemma unclosed_append (a b : String) : unclosed (a ++ b) = unclosed a + unclosed b := by
  simp only [unclosed, String.toList_append, List.count_append]
  omega

lemma unclosed_eq_zero {text : String} (h : ∀ c ∈ text.toList, c ≠ '(' ∧ c ≠ ')') :
    unclosed text = 0 := by
  have hopen : text.toList.count '(' = 0 := List.count_eq_zero.2 fun hmem => (h _ hmem).1 rfl
  have hclose : text.toList.count ')' = 0 := List.count_eq_zero.2 fun hmem => (h _ hmem).2 rfl
  rw [unclosed, hopen, hclose]
  rfl

lemma IsWord.unclosed_eq_zero {text : String} (h : IsWord text) : unclosed text = 0 := by
  refine Netscribe.unclosed_eq_zero fun c hc => ?_
  have hword := h c hc
  constructor <;> rintro rfl <;> revert hword <;> decide

@[simp] lemma unclosed_spaces (count : ℕ) : unclosed (Text.spaces count) = 0 := by
  refine unclosed_eq_zero fun c hc => ?_
  rw [Text.spaces, String.toList_ofList] at hc
  rw [List.eq_of_mem_replicate hc]
  decide

lemma unclosed_padRight (width : ℕ) (text : String) :
    unclosed (Text.padRight width text) = unclosed text := by
  rw [Text.padRight, unclosed_append, unclosed_spaces, Int.add_zero]

lemma unclosed_vhdlPort {p : Port} (hp : IsWord p.name) : unclosed (Dialect.vhdlPort p) = 0 := by
  have htype : unclosed (Dialect.vhdlType p.width) = 0 := by
    rw [Dialect.vhdlType]
    split
    · decide
    · rw [unclosed_append, unclosed_append, (IsWord.natural _).unclosed_eq_zero]
      decide
  simp only [Dialect.vhdlPort, alignName, unclosed_append, unclosed_padRight, hp.unclosed_eq_zero,
    (isWord_directionKeyword _ _).unclosed_eq_zero, htype]
  decide

/-- Where only the first lead opens a parenthesis and only the last end closes it, it is open in
between. -/
lemma unclosed_take_bracketed {α : Type} {first later between last : String} {text : α → String}
    {xs : List α} (hlater : unclosed later = 0) (hbetween : unclosed between = 0)
    (htext : ∀ x ∈ xs, unclosed (text x) = 0) {k : ℕ} (hpos : 0 < k) (hle : k ≤ xs.length) :
    unclosed (String.join ((Dialect.bracketed first later between last text xs).take k))
      = unclosed first + if k < xs.length then 0 else unclosed last := by
  induction xs generalizing first k with
  | nil => exact absurd hpos (Nat.not_lt.2 hle)
  | cons x xs ih =>
      have hx := htext x List.mem_cons_self
      obtain ⟨k, rfl⟩ := Nat.exists_eq_add_one.2 hpos
      cases xs with
      | nil =>
          obtain rfl : k = 0 := by simpa using hle
          simp [Dialect.bracketed, hx]
      | cons y ys =>
          rw [Dialect.bracketed, List.take_succ_cons, String.join_cons, unclosed_append]
          · rcases Nat.eq_zero_or_pos k with rfl | hk
            · simp [hx, hbetween]
            · rw [ih (fun z hz => htext z (List.mem_cons_of_mem _ hz)) hk (Nat.le_of_succ_le_succ hle)]
              simp [hx, hbetween, hlater]
          · exact List.cons_ne_nil y ys

/-! ## Interfaces -/

/-- The last word of a text. -/
def lastWord (text : String) : String :=
  String.ofList (word (text.toList.reverse.dropWhile (! Identifier.isWordChar ·))).reverse

namespace Dialect

/-- How many lines an interface has before those of its ports. -/
def preamble : Dialect → ℕ
  | .vhdl => 4
  | .verilog => 0

/-- The port that one of those lines names. -/
def portName : Dialect → String → String
  | .vhdl, line => String.ofList (word (line.toList.drop 10))
  | .verilog, line => lastWord line

end Dialect

lemma lastWord_eq {lead name stop : String} (hword : IsWord name) (hne : name ≠ "")
    (hlead : ∀ c ∈ lead.toList.getLast?, Identifier.isWordChar c = false)
    (hstop : stop.toList.all (! Identifier.isWordChar ·) = true) :
    lastWord (lead ++ name ++ stop) = name := by
  have hsplit : (lead ++ name ++ stop).toList.reverse
      = stop.toList.reverse ++ (name.toList.reverse ++ lead.toList.reverse) := by
    simp
  have hhead : ∀ c ∈ (name.toList.reverse ++ lead.toList.reverse).head?,
      (! Identifier.isWordChar c) = false := by
    intro c hc
    have hrev : name.toList.reverse ≠ [] := by simpa using hne
    rw [List.head?_append_of_ne_nil _ hrev] at hc
    simpa using hword c (List.mem_reverse.1 (List.mem_of_mem_head? hc))
  have hend : ∀ c ∈ stop.toList.reverse, (! Identifier.isWordChar c) = true := fun c hc =>
    List.all_eq_true.1 hstop c (List.mem_reverse.1 hc)
  rw [lastWord, hsplit, dropWhile_append_of_boundary hend hhead,
    word_append (fun c hc => hword c (List.mem_reverse.1 hc)) (by simpa using hlead), List.reverse_reverse,
    String.ofList_toList]

namespace Dialect

variable {d : Dialect} {name : String} {ps qs : List Port}

/-- The lines of a module header are not empty. -/
lemma ne_empty_of_mem_header {head line : String}
    (h : line ∈ bracketed head (Text.spaces head.utf8ByteSize) "," " );" Port.name ps) : line ≠ "" := by
  obtain ⟨p, -, lead, -, stop, hstop, rfl⟩ := exists_of_mem_bracketed h
  intro hempty
  have hlength := congrArg String.length hempty
  rcases List.mem_pair.1 hstop with rfl | rfl <;> simp at hlength

@[simp] lemma length_vhdlPortClause (indent : ℕ) (ps : List Port) :
    (vhdlPortClause indent ps).length = ps.length :=
  length_bracketed

lemma length_lead {lead : String}
    (h : lead ∈ [Text.spaces indentation ++ "PORT ( ", Text.spaces (indentation + 7)]) :
    lead.toList.length = 10 := by
  rcases List.mem_pair.1 h with rfl | rfl <;> rfl

/-- **The ports are read back off an interface**, in their order. -/
lemma ports?_interface (hps : ∀ p ∈ ps, IsWord p.name) :
    d.ports? (d.interface name ps) = some (ps.map Port.declared) := by
  cases d with
  | vhdl =>
      have hports : (vhdlPortClause indentation ps).map vhdlPort? = ps.map (some ∘ Port.declared) := by
        refine map_bracketed fun p hp lead hlead stop hstop => ?_
        refine vhdlPort?_line (hps p hp) (length_lead hlead) ?_
        rcases List.mem_pair.1 hstop with rfl | rfl
        all_goals
          rintro c ⟨⟩
          decide
      show ((vhdlPortClause indentation ps ++ [_]).dropLast).mapM vhdlPort? = _
      rw [List.dropLast_concat, mapM_eq_some_iff, hports, List.map_map]
  | verilog =>
      have hports : (ps.map verilogPort).map verilogPort? = ps.map (some ∘ Port.declared) := by
        rw [List.map_map]
        exact List.map_congr_left fun p hp => verilogPort?_line (hps p hp)
      rw [interface]
      split
      · next hempty =>
          rw [List.isEmpty_iff.1 hempty, ports?, List.dropWhile_cons]
          split <;> rfl
      · rw [ports?, dropWhile_append_of_boundary, List.tail_cons, mapM_eq_some_iff, hports,
          List.map_map]
        · intro line hline
          simpa using ne_empty_of_mem_header hline
        · rintro line ⟨⟩
          rfl

/-- A width of zero is written as a width of one. -/
lemma interface_declared : d.interface name (ps.map Port.declared) = d.interface name ps := by
  have hle : ∀ width, max width 1 ≤ 1 ↔ width ≤ 1 := by omega
  have hpred : ∀ width, max width 1 - 1 = width - 1 := by omega
  have htype : ∀ width, vhdlType (max width 1) = vhdlType width := by
    simp only [vhdlType, hle, hpred, implies_true]
  have hrange : ∀ width, verilogRange (max width 1) = verilogRange width := by
    simp only [verilogRange, hle, hpred, implies_true]
  cases d with
  | vhdl =>
      have hclause : vhdlPortClause indentation (ps.map Port.declared)
          = vhdlPortClause indentation ps := by
        refine bracketed_map fun p => ?_
        rw [vhdlPort, vhdlPort, Port.declared, htype]
      rw [interface, interface, hclause]
  | verilog =>
      have hheader : ∀ head later : String,
          bracketed head later "," " );" Port.name (ps.map Port.declared)
            = bracketed head later "," " );" Port.name ps := fun _ _ => bracketed_map fun _ => rfl
      have hports : (ps.map Port.declared).map verilogPort = ps.map verilogPort := by
        rw [List.map_map]
        refine List.map_congr_left fun p _ => ?_
        rw [Function.comp_apply, verilogPort, verilogPort, Port.declared, hrange]
      simp only [interface, hports, hheader, List.isEmpty_map]

/-- The lines that name the ports, each in its place. -/
lemma map_portName_interface (hps : ∀ p ∈ ps, IsWord p.name ∧ p.name ≠ "") :
    (((d.interface name ps).drop d.preamble).take ps.length).map d.portName
      = ps.map Port.name := by
  cases d with
  | vhdl =>
      show ((vhdlPortClause indentation ps ++ [_]).take ps.length).map _ = _
      rw [List.take_left' (length_vhdlPortClause _ _)]
      refine map_bracketed fun p hp lead hlead stop _ => ?_
      rw [portName, drop_vhdlPort p (length_lead hlead),
        word_append (hps p hp).1 (isWordChar_head?_blanks _), String.ofList_toList]
  | verilog =>
      rw [interface, preamble, List.drop_zero]
      split
      · next hempty =>
          rw [List.isEmpty_iff.1 hempty]
          rfl
      · dsimp only
        rw [List.take_left' length_bracketed]
        refine map_bracketed fun p hp lead hlead stop hstop =>
          lastWord_eq (hps p hp).1 (hps p hp).2 ?_ ?_
        · intro c hc
          obtain rfl : c = ' ' := by
            rcases List.mem_pair.1 hlead with rfl | rfl
            · have hblank : ("module " ++ name ++ "( ").toList
                  = ("module " ++ name ++ "(").toList ++ [' '] := by simp
              rw [hblank, List.getLast?_concat] at hc
              exact (Option.some.inj hc).symm
            · rw [Text.spaces, String.toList_ofList] at hc
              exact List.eq_of_mem_replicate (List.mem_of_getLast? hc)
          decide
        · rcases List.mem_pair.1 hstop with rfl | rfl <;> decide

/-- **The parenthesis around the ports** is open after each of their lines but the last. -/
lemma unclosed_take_interface (hps : ∀ p ∈ ps, IsWord p.name) {k : ℕ} (hpos : 0 < k)
    (hle : k ≤ ps.length) :
    unclosed (String.join ((d.interface name ps).take (d.preamble + k)))
      = unclosed name + if k < ps.length then 1 else 0 := by
  cases d with
  | vhdl =>
      have hle' : k ≤ (vhdlPortClause indentation ps).length := by rwa [length_vhdlPortClause]
      have htake : (vhdl.interface name ps).take (preamble .vhdl + k)
          = ["LIBRARY ieee;", "USE ieee.std_logic_1164.all;", "", "ENTITY " ++ name ++ " IS"]
            ++ (vhdlPortClause indentation ps).take k := by
        rw [interface, preamble, Nat.add_comm]
        show _ :: _ :: _ :: _ :: (vhdlPortClause indentation ps ++ [_]).take k = _
        rw [List.take_append_of_le_length hle']
        rfl
      have htext : ∀ p ∈ ps, unclosed (vhdlPort p) = 0 := fun p hp => unclosed_vhdlPort (hps p hp)
      have hopen : unclosed "LIBRARY ieee;" = 0 ∧ unclosed "USE ieee.std_logic_1164.all;" = 0
          ∧ unclosed "ENTITY " = 0 ∧ unclosed " IS" = 0 ∧ unclosed "PORT ( " = 1
          ∧ unclosed " );" = -1 := by
        decide
      rw [htake, String.join_append, unclosed_append, vhdlPortClause,
        unclosed_take_bracketed (unclosed_spaces _) (by decide) htext hpos hle]
      split <;> simp [hopen]
  | verilog =>
      have hne : ps.isEmpty = false := by
        cases ps with
        | nil => exact absurd hpos (Nat.not_lt.2 hle)
        | cons => rfl
      have hopen : unclosed "module " = 0 ∧ unclosed "( " = 1 ∧ unclosed " );" = -1 := by decide
      rw [interface, preamble, Nat.zero_add, hne]
      dsimp only
      rw [if_neg Bool.false_ne_true,
        List.take_append_of_le_length (by rwa [length_bracketed]),
        unclosed_take_bracketed (unclosed_spaces _) (by decide)
          (fun p hp => (hps p hp).unclosed_eq_zero) hpos hle]
      simp only [unclosed_append, hopen]
      split <;> omega

/-- **An interface tells its ports**, in either language and whatever the definition is called: two lists
of ports have the same text exactly if they are equal once a width of zero is read as one.  Direction,
name and width of each port are read back in order, there is one line that names each port, and of
these lines it is the last that closes the parenthesis. -/
theorem interface_tells_ports (d : Dialect) (name : String) {ps qs : List Port}
    (hps : ∀ p ∈ ps, IsWord p.name ∧ p.name ≠ "") (hqs : ∀ p ∈ qs, IsWord p.name ∧ p.name ≠ "") :
    (d.interface name ps = d.interface name qs ↔ ps.map Port.declared = qs.map Port.declared)
    ∧ d.ports? (d.interface name ps) = some (ps.map Port.declared)
    ∧ (((d.interface name ps).drop d.preamble).take ps.length).map d.portName = ps.map Port.name
    ∧ ∀ k, 0 < k → k ≤ ps.length →
        unclosed (String.join ((d.interface name ps).take (d.preamble + k)))
          = unclosed name + if k < ps.length then 1 else 0 := by
  have hps' : ∀ p ∈ ps, IsWord p.name := fun p hp => (hps p hp).1
  have hqs' : ∀ p ∈ qs, IsWord p.name := fun p hp => (hqs p hp).1
  refine ⟨⟨fun hsame => ?_, fun hsame => ?_⟩, ports?_interface hps', map_portName_interface hps,
    fun k hpos hle => unclosed_take_interface hps' hpos hle⟩
  · have hports := congrArg d.ports? hsame
    rw [ports?_interface hps', ports?_interface hqs'] at hports
    exact Option.some.inj hports
  · calc d.interface name ps = d.interface name (ps.map Port.declared) := interface_declared.symm
      _ = d.interface name (qs.map Port.declared) := by rw [hsame]
      _ = d.interface name qs := interface_declared

/-- A name that is longer than its column, and a port without bits. -/
theorem interface_tells_ports_noBits :
    let ps : List Port :=
      [⟨.input, "the_column_for_the_names_of_ports_ends_here", 8⟩, ⟨.inout, "q", 0⟩]
    let qs : List Port :=
      [⟨.input, "the_column_for_the_names_of_ports_ends_here", 8⟩, ⟨.inout, "q", 1⟩]
    (∀ p ∈ ps, IsWord p.name ∧ p.name ≠ "") ∧ (∀ p ∈ qs, IsWord p.name ∧ p.name ≠ "")
      ∧ ∀ d : Dialect, d.interface "top" ps = d.interface "top" qs
        ∧ d.ports? (d.interface "top" ps) = some qs := by
  intro ps qs
  have hps : ∀ p ∈ ps, IsWord p.name ∧ p.name ≠ "" := by decide
  have hqs : ∀ p ∈ qs, IsWord p.name ∧ p.name ≠ "" := by decide
  refine ⟨hps, hqs, fun d => ?_⟩
  obtain ⟨hsame, hports, -⟩ := interface_tells_ports d "top" hps hqs
  exact ⟨hsame.2 rfl, hports⟩

end Dialect

end Netscribe
