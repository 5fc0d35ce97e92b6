import Netscribe.Proofs.Json.Shape

/-!
# Netlists are read back

Every type of the exchange format is read back from what is written of it, whatever is left out: its
fields are found by their names, each of them is read back, and what is absent is read as absent.

* `Dictionary.ofList_toList` — a dictionary is put together from its entries.
* `Net.roundTrips`, `Terminal.roundTrips`, `Kind.roundTrips`, `Component.roundTrips`, … — the types.
* **`Netlist.roundTrips`** — a netlist.
-/

namespace Netscribe

open Json

/-! ## Dictionaries -/

namespace Dictionary

variable {α : Type}

lemma ext {d d' : Dictionary α} (h : d.toList = d'.toList) : d = d' := by
  cases d
  cases d'
  cases h
  rfl

/-- An entry with a key above all others comes last. -/
lemma insertEntry_of_forall_lt {key : String} (value : α) {l : List (String × α)}
    (h : ∀ e ∈ l, e.1 < key) : insertEntry key value l = l ++ [(key, value)] := by
  induction l with
  | nil => rfl
  | cons e l ih =>
      obtain ⟨hlt, h⟩ := List.forall_mem_cons.1 h
      rw [insertEntry, if_neg (String.lt_asymm hlt), if_pos hlt, ih h]
      rfl

/-- Entries that go on ascending are added at the end. -/
lemma toList_foldl_insert {entries : List (String × α)} {d : Dictionary α}
    (h : (d.toList ++ entries).Pairwise fun a b => a.1 < b.1) :
    (entries.foldl (fun d e => d.insert e.1 e.2) d).toList = d.toList ++ entries := by
  induction entries generalizing d with
  | nil => exact (List.append_nil _).symm
  | cons e entries ih =>
      have hlast : (d.insert e.1 e.2).toList = d.toList ++ [e] :=
        insertEntry_of_forall_lt e.2 fun x hx =>
          (List.pairwise_append.1 h).2.2 x hx e List.mem_cons_self
      rw [List.foldl_cons, ih, hlast, List.append_assoc, List.singleton_append]
      rwa [hlast, List.append_assoc, List.singleton_append]

/-- **A dictionary is put together from its entries.** -/
theorem ofList_toList (d : Dictionary α) : ofList d.toList = d :=
  ext (toList_foldl_insert (d := empty) d.ascending)

end Dictionary

/-! ## Nets -/

lemma Point.roundTrips : RoundTrips toJson ofJson? where
  plain p := .record (by simp [roundTrips_word32.plain])
  read_encode p := by
    rw [toJson, ofJson?, fields?_record]
    · simp [List.lookup_cons, roundTrips_word32.read_encode]
    · exact .refl _
    · decide

lemma View.roundTrips : RoundTrips toJson ofJson? where
  plain p := .record (by simp [roundTrips_word32.plain])
  read_encode v := by
    rw [toJson, ofJson?, fields?_record]
    · simp [List.lookup_cons, roundTrips_word32.read_encode]
    · exact .refl _
    · decide

lemma roundTrips_pointLists : RoundTrips pointListsToJson pointListsOfJson? :=
  Point.roundTrips.list.list

lemma Net.roundTrips : RoundTrips toJson ofJson? where
  plain n := .record (by
    simp [roundTrips_word32.plain, View.roundTrips.plain_memberIf, roundTrips_bool.plain,
      roundTrips_pointLists.plain])
  read_encode n := by
    rw [toJson, ofJson?, fields?_record]
    · simp [List.lookup_cons, List.lookup_append, lookup_memberIf, roundTrips_word32.read_encode,
        View.roundTrips.read_absent fun _ => record_ne_null, roundTrips_bool.read_encode,
        roundTrips_pointLists.read_encode]
    · cases n.parent <;> simp [memberIf]
    · decide

/-! ## Terminals -/

lemma Direction.roundTrips : RoundTrips toJson ofJson? where
  plain _ := .string _
  read_encode d := by cases d <;> rfl

lemma Terminal.roundTrips : RoundTrips toJson ofJson? where
  plain t := .record (by
    simp [Direction.roundTrips.plain, roundTrips_text.plain_memberIf,
      (Point.roundTrips.nullable fun _ => record_ne_null).list.plain])
  read_encode t := by
    have htext : ∀ s, text s ≠ .null := fun _ h => nomatch h
    rw [toJson, ofJson?, fields?_record]
    · simp [List.lookup_cons, List.lookup_append, lookup_memberIf, Direction.roundTrips.read_encode,
        roundTrips_text.read_absent htext,
        (Point.roundTrips.nullable fun _ => record_ne_null).list.read_encode]
    · cases t.label <;> simp [memberIf]
    · decide

/-! ## Components -/

lemma BubbleRange.roundTrips : RoundTrips toJson ofJson? where
  plain r := .record (by simp [roundTrips_word32.plain])
  read_encode r := by
    rw [toJson, ofJson?, fields?_record]
    · simp [List.lookup_cons, roundTrips_word32.read_encode]
    · exact .refl _
    · decide

lemma Bubbles.roundTrips : RoundTrips toJson ofJson? where
  plain b := .record (by simp [BubbleRange.roundTrips.plain_memberIf])
  read_encode b := by
    rw [toJson, ofJson?, fields?_record]
    · simp [List.lookup_append, lookup_memberIf,
        BubbleRange.roundTrips.read_absent fun _ => record_ne_null]
    · cases b.input <;> cases b.output <;> cases b.inout <;> simp [memberIf]
    · decide

/-- An attribute is told by its kind of value. -/
lemma Attribute.roundTrips : RoundTrips toJson ofJson? where
  plain
    | .int _ => .integer _
    | .bool _ => .bool _
    | .text _ => .string _
  read_encode
    | .int value => congrArg (Option.map int) (roundTrips_int64.read_encode value)
    | .bool _ => rfl
    | .text _ => rfl

lemma roundTrips_attributes : RoundTrips attributesToJson attributesOfJson? where
  plain attributes := .record fun m hm => by
    obtain ⟨e, -, rfl⟩ := List.mem_map.1 hm
    exact Attribute.roundTrips.plain e.2
  read_encode attributes := by
    have hentries : (attributes.toList.map fun e => (e.1, e.2.toJson)).mapM
        (fun m => (Attribute.ofJson? m.2).map (m.1, ·)) = some attributes.toList := by
      refine mapM_eq_some_iff.2 ?_
      rw [List.map_map]
      exact List.map_congr_left fun e _ =>
        congrArg (Option.map (e.1, ·)) (Attribute.roundTrips.read_encode e.2)
    rw [attributesToJson, attributesOfJson?, members?_record]
    simp [hentries, Dictionary.ofList_toList]

lemma Kind.roundTrips : RoundTrips toJson ofJson? where
  plain
    | .pin => .string _
    | .primitive factory attributes =>
        .record (plainMembers_cons.2 ⟨.record (by
          simp [roundTrips_text.plain, roundTrips_attributes.plain]), plainMembers_nil⟩)
    | .instance circuit gated =>
        .record (plainMembers_cons.2 ⟨.record (by
          simp [roundTrips_word32.plain, roundTrips_bool.plain]), plainMembers_nil⟩)
  read_encode
    | .pin => rfl
    | .primitive factory attributes => by
        show primitiveOfJson? _ = _
        rw [primitiveOfJson?, fields?_record]
        · simp [List.lookup_cons, roundTrips_text.read_encode, roundTrips_attributes.read_encode]
        · exact .refl _
        · decide
    | .instance circuit gated => by
        show instanceOfJson? _ = _
        rw [instanceOfJson?, fields?_record]
        · simp [List.lookup_cons, roundTrips_word32.read_encode, roundTrips_bool.read_encode]
        · exact .refl _
        · decide

lemma Component.roundTrips : RoundTrips toJson ofJson? where
  plain c := .record (by
    simp [roundTrips_text.plain, Kind.roundTrips.plain, Terminal.roundTrips.list.plain,
      Bubbles.roundTrips.plain])
  read_encode c := by
    rw [toJson, ofJson?, fields?_record]
    · simp [List.lookup_cons, roundTrips_text.read_encode, Kind.roundTrips.read_encode,
        Terminal.roundTrips.list.read_encode, Bubbles.roundTrips.read_encode]
    · exact .refl _
    · decide

lemma roundTrips_components : RoundTrips componentsToJson (list? Component.ofJson?) :=
  Component.roundTrips.list

/-! ## Netlists -/

lemma roundTrips_tree : RoundTrips (Json.nullable fun tree : UInt32 => natural tree.toNat)
    (nullable? word32?) :=
  roundTrips_word32.nullable fun _ h => nomatch h

lemma ClockSource.roundTrips : RoundTrips toJson ofJson? where
  plain c := .record (by simp [Component.roundTrips.plain, roundTrips_tree.plain])
  read_encode c := by
    rw [toJson, ofJson?, fields?_record]
    · simp [List.lookup_cons, Component.roundTrips.read_encode, roundTrips_tree.read_encode]
    · exact .refl _
    · decide

/-- **A netlist is read back.** -/
theorem Netlist.roundTrips : RoundTrips toJson ofJson? where
  plain nl := .record (by
    simp [Net.roundTrips.list.plain, roundTrips_components.plain, ClockSource.roundTrips.list.plain,
      roundTrips_word32.plain, roundTrips_bool.plain])
  read_encode nl := by
    have hfields : nl.toJson.fields? fieldNames = some (.named _) :=
      fields?_record (.refl _) (by decide)
    rw [ofJson?, hfields]
    -- one field after the other
    refine (Fields.optional_bind Net.roundTrips.list rfl).trans ?_
    refine (Fields.optional_bind roundTrips_components rfl).trans ?_
    refine (Fields.optional_bind roundTrips_components rfl).trans ?_
    refine (Fields.optional_bind roundTrips_components rfl).trans ?_
    refine (Fields.optional_bind roundTrips_components rfl).trans ?_
    refine (Fields.optional_bind roundTrips_components rfl).trans ?_
    refine (Fields.optional_bind ClockSource.roundTrips.list rfl).trans ?_
    refine (Fields.optional_bind roundTrips_word32 rfl).trans ?_
    refine (Fields.optional_bind roundTrips_bool rfl).trans ?_
    refine (Fields.optional_bind roundTrips_word32 rfl).trans ?_
    refine (Fields.optional_bind roundTrips_word32 rfl).trans ?_
    refine (Fields.optional_bind roundTrips_word32 rfl).trans ?_
    rfl

end Netscribe
