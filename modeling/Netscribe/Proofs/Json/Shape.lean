import Netscribe.Json.Shape
import Netscribe.Netlist.Json
import Netscribe.Proofs.Data.Lists
import Netscribe.Proofs.Json.Text

/-!
# Typed readings of written values

A writer and a reader of one type belong together: what is written is plain, and reading gives back
what was written.  Records are put together from their fields.  A field that is left out reads as
absent, so its values must not be written as `null`.

* `Json.RoundTrips` — a writer and its reader, with `RoundTrips.list` and `RoundTrips.nullable`.
* `Json.fields?_record` — the fields of a written record.
* `Fields.required_named`, `Fields.optional_named`, `Fields.optional_bind` — one field, with
  `RoundTrips.read_absent` for one that may be left out.
-/

namespace Netscribe

variable {α : Type}

namespace Json

/-- **What is written is read back.** -/
structure RoundTrips (encode : α → Json) (read : Json → Option α) : Prop where
  /-- So that it is the value of its text. -/
  plain : ∀ a, (encode a).Plain
  read_encode : ∀ a, read (encode a) = some a

/-! ## Scalars and lists -/

lemma roundTrips_text : RoundTrips text text? :=
  ⟨fun _ => .string _, fun _ => rfl⟩

lemma roundTrips_bool : RoundTrips bool bool? :=
  ⟨fun _ => .bool _, fun _ => rfl⟩

lemma roundTrips_word32 : RoundTrips (fun word : UInt32 => natural word.toNat) word32? where
  plain word := .integer _
  read_encode word := by
    have hbelow : naturalBelow? UInt32.size (natural word.toNat) = some word.toNat :=
      if_pos word.toNat_lt
    rw [word32?, hbelow, Option.map_some, UInt32.ofNat_toNat]

lemma roundTrips_int64 : RoundTrips (fun value : Int64 => integer value.toInt) int64? where
  plain value := .integer _
  read_encode value := by
    rw [int64?, if_pos ⟨value.minValue_le_toInt, value.toInt_le⟩, Int64.ofInt_toInt]

variable {encode : α → Json} {read : Json → Option α}

lemma RoundTrips.list (h : RoundTrips encode read) :
    RoundTrips (fun as => array (as.map encode)) (list? read) where
  plain as := .array fun v hv => by
    obtain ⟨a, -, rfl⟩ := List.mem_map.1 hv
    exact h.plain a
  read_encode as := by
    refine mapM_eq_some_iff.2 ?_
    rw [List.map_map]
    exact List.map_congr_left fun a _ => h.read_encode a

lemma nullable?_of_ne_null {j : Json} (h : j ≠ .null) : j.nullable? read = (read j).map some := by
  cases j with
  | null => exact absurd rfl h
  | _ => rfl

lemma RoundTrips.nullable (h : RoundTrips encode read) (hnull : ∀ a, encode a ≠ .null) :
    RoundTrips (Json.nullable encode) (nullable? read) where
  plain
    | none => .null
    | some a => h.plain a
  read_encode
    | none => rfl
    | some a => by rw [Json.nullable, nullable?_of_ne_null (hnull a), h.read_encode]; rfl

/-! ## Records -/

variable {members : List (String × Json)} {names : List String}

/-- The values of some members are plain. -/
def PlainMembers (members : List (String × Json)) : Prop :=
  ∀ m ∈ members, m.2.Plain

@[simp] lemma plainMembers_nil : PlainMembers [] :=
  fun _ h => nomatch h

@[simp] lemma plainMembers_cons {m : String × Json} :
    PlainMembers (m :: members) ↔ m.2.Plain ∧ PlainMembers members :=
  List.forall_mem_cons

@[simp] lemma plainMembers_append {ms ms' : List (String × Json)} :
    PlainMembers (ms ++ ms') ↔ PlainMembers ms ∧ PlainMembers ms' :=
  List.forall_mem_append

lemma Plain.record (h : PlainMembers members) : (record members).Plain := by
  refine .object fun m hm => ?_
  obtain ⟨m', hm', rfl⟩ := List.mem_map.1 hm
  exact h m' hm'

lemma record_ne_null : record members ≠ .null := by
  rintro ⟨⟩

lemma members?_record : (record members).members? = some members := by
  refine mapM_eq_some_iff.2 ?_
  rw [List.map_map]
  exact List.map_congr_left fun _ _ => rfl

/-- **The fields of a written record** are found by name, if no name is written twice. -/
lemma fields?_record (h : (members.map Prod.fst).Sublist names) (hnames : names.Nodup) :
    (record members).fields? names = some (.named members) := by
  have honce : (names.all fun name => members.countP (·.1 == name) ≤ 1) = true := by
    rw [List.all_eq_true]
    intro name _
    have hcount := List.nodup_iff_count_le_one.1 (hnames.sublist h) name
    rw [List.count_eq_countP, List.countP_map] at hcount
    exact decide_eq_true hcount
  have hfields : (record members).fields? names = (record members).members?.bind fun members =>
      if names.all fun name => members.countP (·.1 == name) ≤ 1 then some (.named members)
      else none := rfl
  rw [hfields, members?_record, Option.bind_some, if_pos honce]

lemma lookup_memberIf {name other : String} {a : Option α} :
    (memberIf other encode a).lookup name = if name = other then a.map encode else none := by
  cases a with
  | none => simp [memberIf]
  | some a =>
      rw [memberIf, List.lookup_cons]
      split
      · next heq => rw [if_pos (beq_iff_eq.1 heq)]; rfl
      · next hne => rw [if_neg (beq_eq_false_iff_ne.1 hne)]; rfl

end Json

namespace Fields

open Json

variable {encode : α → Json} {read : Json → Option α} {members : List (String × Json)}
  {name : String}

lemma get?_named : (named members).get? name = members.lookup name :=
  rfl

@[simp] lemma required_named :
    (named members).required name read = (members.lookup name).bind read :=
  rfl

@[simp] lemma optional_named {absent : α} :
    (named members).optional name absent read
      = ((members.lookup name).map read).getD (some absent) := by
  rw [optional, get?_named]
  cases members.lookup name <;> rfl

/-- Reading goes on after a field that is written. -/
lemma optional_bind {β : Type} (h : RoundTrips encode read) {a absent : α} {go : α → Option β}
    (ha : members.lookup name = some (encode a)) :
    ((named members).optional name absent read).bind go = go a := by
  rw [optional_named, ha, Option.map_some, Option.getD_some, h.read_encode, Option.bind_some]

end Fields

namespace Json.RoundTrips

variable {encode : α → Json} {read : Json → Option α}

/-- **A field that is left out where it is absent** is read back. -/
lemma read_absent (h : RoundTrips encode read) (hnull : ∀ a, encode a ≠ .null) (a : Option α) :
    (a.map (nullable? read ∘ encode)).getD (some none) = some a := by
  cases a with
  | none => rfl
  | some a => exact (h.nullable hnull).read_encode (some a)

lemma plain_memberIf (h : RoundTrips encode read) (name : String) (a : Option α) :
    PlainMembers (memberIf name encode a) := by
  cases a with
  | none => exact plainMembers_nil
  | some a => exact plainMembers_cons.2 ⟨h.plain a, plainMembers_nil⟩

end Json.RoundTrips

end Netscribe
