import Netscribe.Hdl.Remark
import Netscribe.Proofs.Text.Fill
import Netscribe.Proofs.Text.Words

/-!
# Words of a remark block

The lines between the first and the last one of a block hold the words of its text.  Each has its words
in a frame of three characters on either side, and padding makes it as wide as the block; a line is
longer only if a single word is.

* `Dialect.framed`, `Dialect.unframed` — words put into the frame, and the text read out of it.
* `Dialect.Shows` — a line that shows some words.
* `Dialect.Shows.length_eq` — how wide such a line is.
* **`Dialect.remark_fills`** — the words of a text and the lines of its block.
-/

namespace Netscribe.Dialect

variable {d : Dialect} {indent : ℕ} {words : List String}

/-- **The text of a line in the frame**, without the indentation and the three characters of the frame
on either side. -/
def unframed (indent : ℕ) (line : String) : String :=
  String.ofList ((line.toList.drop (indent + 3)).take (line.length - (indent + 6)))

/-- **Words in the frame**: they are joined by single blanks and padded. -/
def framed (d : Dialect) (indent : ℕ) (words : List String) : String :=
  Text.spaces indent ++ d.remarkLeft ++ Text.padRight (74 - indent) (String.intercalate " " words)
    ++ d.remarkRight

/-- **A line that shows some words.**  It is made of them, and they are the words that stand in the
frame. -/
structure Shows (d : Dialect) (indent : ℕ) (line : String) (words : List String) : Prop where
  framed : line = d.framed indent words
  words : Text.HasWords (unframed indent line).toList words

/-! ## The frame -/

lemma length_remarkLeft (d : Dialect) : d.remarkLeft.length = 3 := by
  cases d <;> rfl

lemma length_remarkRight (d : Dialect) : d.remarkRight.length = 3 := by
  cases d <;> rfl

/-- What stands in the frame are the words and their padding. -/
lemma toList_unframed_framed (d : Dialect) (indent : ℕ) (words : List String) :
    (unframed indent (d.framed indent words)).toList
      = (Text.padRight (74 - indent) (String.intercalate " " words)).toList := by
  have hlead : (Text.spaces indent ++ d.remarkLeft).toList.length = indent + 3 := by
    rw [String.length_toList, String.length_append, Text.length_spaces, length_remarkLeft]
  rw [unframed, framed]
  generalize Text.spaces indent ++ d.remarkLeft = lead at hlead ⊢
  generalize Text.padRight _ _ = text
  have hlength : (lead ++ text ++ d.remarkRight).length - (indent + 6) = text.toList.length := by
    rw [String.length_append, String.length_append, length_remarkRight, ← lead.length_toList, hlead,
      String.length_toList]
    omega
  rw [hlength, ← hlead, String.toList_append, String.toList_append, List.append_assoc,
    List.drop_left, List.take_left, String.toList_ofList]

/-- Words in a frame are shown. -/
lemma shows_framed (d : Dialect) (indent : ℕ) (h : ∀ word ∈ words, Text.IsUnbroken word) :
    d.Shows indent (d.framed indent words) words := by
  refine ⟨rfl, ?_⟩
  rw [toList_unframed_framed, Text.padRight, String.toList_append]
  refine Text.hasWords_joined h fun c hc => ?_
  rw [Text.spaces, String.toList_ofList] at hc
  rw [List.eq_of_mem_replicate hc]
  decide

/-! ## The width -/

lemma length_remarkTop (d : Dialect) {fill : ℕ} (h : 0 < fill) : (d.remarkTop fill).length = fill := by
  cases d with
  | vhdl => simp [remarkTop]
  | verilog =>
      rw [remarkTop, String.length_ofList, List.length_cons, List.length_replicate]
      omega

lemma length_remarkBottom (d : Dialect) {fill : ℕ} (h : 0 < fill) :
    (d.remarkBottom fill).length = fill := by
  cases d with
  | vhdl => simp [remarkBottom]
  | verilog =>
      rw [remarkBottom, String.length_ofList, List.length_append, List.length_replicate,
        List.length_singleton]
      omega

/-- A line is as wide as the block if its words take no more bytes than there are columns. -/
lemma Shows.length_eq {line : String} (h : d.Shows indent line words) (hindent : indent ≤ 64)
    (hfits : Text.lineSize words ≤ 74 - indent) : line.length = 80 := by
  have hlength := (Text.length_le_utf8ByteSize (String.intercalate " " words)).trans hfits
  obtain ⟨rfl, -⟩ := h
  rw [Dialect.framed, String.length_append, String.length_append, String.length_append,
    Text.length_spaces, length_remarkLeft, length_remarkRight, Text.length_padRight hlength]
  omega

/-! ## Blocks -/

/-- **The words of a text and the lines of its block.**  The lines between the first and the last show
all words of the text, in order and each once; a single blank line stands there if there are none.
Where a line ends, the first word of the next did not fit into the columns between the frame.  And if
each word fits there by its bytes, all lines of the block are eighty characters wide. -/
theorem remark_fills (d : Dialect) (text : String) (hindent : indent ≤ 64) :
    ∃ first middle last words, ∃ lines : List (List String),
      d.remark text indent = first :: (middle ++ [last])
      ∧ Text.HasWords text.toList words
      ∧ List.Forall₂ (d.Shows indent) middle lines
      ∧ lines.flatten = words
      ∧ (words = [] → lines = [[]]) ∧ (words ≠ [] → [] ∉ lines)
      ∧ lines.IsChain (Text.IsFull (74 - indent))
      ∧ ((∀ word ∈ words, word.utf8ByteSize ≤ 74 - indent) →
        ∀ line ∈ d.remark text indent, line.length = 80) := by
  have hinner : remarkInner indent = 74 - indent := by
    rw [remarkInner, lineWidth]
    omega
  have hfill : remarkFill indent = 80 - indent := by
    rw [remarkFill, lineWidth]
    omega
  have hpos : 0 < 80 - indent := by omega
  have hwords := Text.splitWords_eq_iff.1 (rfl : Text.splitWords text = _)
  generalize hsplit : Text.splitWords text = words at hwords
  have hflatten := Text.flatten_fill (74 - indent) words
  have hshows : ∀ line ∈ Text.fill (74 - indent) words,
      d.Shows indent (d.framed indent line) line := by
    intro line hline
    refine shows_framed d indent fun word hword => hwords.isUnbroken word ?_
    rw [← hflatten]
    exact List.mem_flatten.2 ⟨line, hline, hword⟩
  have hblock : d.remark text indent = (Text.spaces indent ++ d.remarkTop (80 - indent))
      :: ((Text.fill (74 - indent) words).map (d.framed indent)
      ++ [Text.spaces indent ++ d.remarkBottom (80 - indent)]) := by
    rw [remark, hinner, hfill, Text.wrap, hsplit, List.map_map]
    rfl
  refine ⟨_, _, _, words, _, hblock, hwords,
    List.forall₂_map_left_iff.2 (List.forall₂_same.2 hshows), hflatten, ?_, ?_,
    Text.isChain_fill _ _, fun hfits line hline => ?_⟩
  · rintro rfl
    rfl
  · exact fun hne hmem => Text.ne_nil_of_mem_fill hne _ hmem rfl
  · rw [hblock, List.mem_cons, List.mem_append, List.mem_singleton] at hline
    rcases hline with rfl | hline | rfl
    · rw [String.length_append, Text.length_spaces, length_remarkTop d hpos]
      omega
    · obtain ⟨ws, hws, rfl⟩ := List.mem_map.1 hline
      exact (hshows ws hws).length_eq hindent (Text.lineSize_le_of_mem_fill hfits ws hws)
    · rw [String.length_append, Text.length_spaces, length_remarkBottom d hpos]
      omega

/-- Ten columns of text: two words take ten bytes, the next nine of only three characters, and no more
fits beside them. -/
theorem remark_fills_narrow :
    let text := "größe é\u3000日本語 a"
    64 ≤ 64 ∧ (∀ word ∈ ["größe", "é", "日本語", "a"], word.utf8ByteSize ≤ 74 - 64)
      ∧ ∃ first middle last, ∃ lines : List (List String),
        verilog.remark text 64 = first :: (middle ++ [last])
        ∧ List.Forall₂ (verilog.Shows 64) middle lines
        ∧ lines.flatten = ["größe", "é", "日本語", "a"]
        ∧ lines.IsChain (Text.IsFull 10)
        ∧ ∀ line ∈ verilog.remark text 64, line.length = 80 := by
  intro text
  obtain ⟨first, middle, last, words, lines, hblock, hwords, hshows, hflatten, -, -, hfull, hwide⟩ :=
    remark_fills .verilog text (Nat.le_refl 64)
  obtain rfl : ["größe", "é", "日本語", "a"] = words := by
    rw [← Text.splitWords_eq_iff.2 hwords]
    decide
  have hfits : ∀ word ∈ ["größe", "é", "日本語", "a"], word.utf8ByteSize ≤ 74 - 64 := by decide
  exact ⟨Nat.le_refl 64, hfits, first, middle, last, lines, hblock, hshows, hflatten, hfull,
    hwide hfits⟩

end Netscribe.Dialect
