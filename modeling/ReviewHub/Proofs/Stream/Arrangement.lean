import ReviewHub.Proofs.Json.Check
import ReviewHub.Proofs.Json.Layout
import ReviewHub.Proofs.Json.Order
import ReviewHub.Proofs.Stream.Provider

/-!
# The arrangement of a line

A line of the event stream says what it says in whatever order its members come and however it is
laid out. The parser brings the members into an order of its own before it looks at any of them, so
not even the failure that is reported depends on the order in which they came.
-/

namespace ReviewHub.Stream

section Lines

variable {line other : String} {ms ns : List (String × Json)}

/-- Lines whose objects differ in the order of members only are treated alike. -/
theorem parseText_eq_of_reordered (one : Json.parse (Text.trim line.toList) = .ok (.object ms))
    (two : Json.parse (Text.trim other.toList) = .ok (.object ns))
    (distinct : Json.KeysDistinct (.object ms))
    (reordered : Json.Reordered (.object ms) (.object ns)) (provider : Option Provider) :
    parseText line provider = parseText other provider := by
  have same : Json.canonicalMembers ms = Json.canonicalMembers ns :=
    Json.object.inj (reordered.canonical_eq distinct)
  rw [parseText_of_object one, parseText_of_object two, same]

/-- However an object is laid out in a line, it is read. -/
theorem parse_trim_of_writes {text : List Char}
    (writes : Json.Writes Json.Reader.levelLimit (.object ms) text)
    (padded : Text.Padded text line.toList) :
    Json.parse (Text.trim line.toList) = .ok (.object ms) := by
  obtain ⟨core, writesCore, paddedCore, trimmed⟩ := writes.exists_trimmed
  rw [padded.trim_eq, paddedCore.trim_eq, trimmed]
  exact writesCore.parse_eq

end Lines

/-- The order of members and the layout do not matter to the parser. Two lines that are read as
objects come to the same, whatever it is, if no key is repeated in them and they differ only in the
order of members, at any depth. An object is read from every line that it is written in, with blanks
around every token and any others around the whole. So two lines that write such objects come to
the same, each in its own layout. -/
theorem arrangement_does_not_matter (provider : Option Provider) :
    (∀ (line other : String) ms ns, Json.parse (Text.trim line.toList) = .ok (.object ms) →
      Json.parse (Text.trim other.toList) = .ok (.object ns) →
      Json.KeysDistinct (.object ms) → Json.Reordered (.object ms) (.object ns) →
        parser.ofText line provider = parser.ofText other provider) ∧
    (∀ (line : String) text ms, Json.Writes Json.Reader.levelLimit (.object ms) text →
      Text.Padded text line.toList → Json.parse (Text.trim line.toList) = .ok (.object ms)) ∧
    ∀ (line other : String) text otherText ms ns,
      Json.Writes Json.Reader.levelLimit (.object ms) text →
      Json.Writes Json.Reader.levelLimit (.object ns) otherText →
      Text.Padded text line.toList → Text.Padded otherText other.toList →
      Json.KeysDistinct (.object ms) → Json.Reordered (.object ms) (.object ns) →
        parser.ofText line provider = parser.ofText other provider := by
  refine ⟨?order, ?layout, ?both⟩
  case order =>
    intro line other ms ns one two distinct reordered
    exact parseText_eq_of_reordered one two distinct reordered provider
  case layout =>
    intro line text ms writes padded
    exact parse_trim_of_writes writes padded
  case both =>
    intro line other text otherText ms ns writes writesToo padded paddedToo distinct reordered
    exact parseText_eq_of_reordered (parse_trim_of_writes writes padded)
      (parse_trim_of_writes writesToo paddedToo) distinct reordered provider

namespace Arranged

/-- An update of a ref by an account that has no text for a name or an email. -/
def plain : String :=
  "\x7b\"type\":\"ref-updated\",\"submitter\":\x7b\"name\":7,\"email\":true\x7d\x7d"

/-- The same in another order and another layout. -/
def loose : String :=
  "\u2003\x7b \"submitter\" : \x7b\"email\":true ,\n\"name\":7\x7d,\"type\":\"ref-updated\"\x7d\t"

/-- The object that the first line is. -/
def plainMembers : List (String × Json) :=
  [("type", .string "ref-updated"),
    ("submitter", .object [("name", .integer 7), ("email", .bool true)])]

/-- How the submitter is written in the second line. -/
def submitter : List Json.WrittenMember :=
  [⟨"email", "\"email\"".toList, .bool true, "true ".toList⟩,
    ⟨"name", "\n\"name\"".toList, .integer 7, "7".toList⟩]

/-- How the second line is written. -/
def looseWritten : List Json.WrittenMember :=
  [⟨"submitter", " \"submitter\" ".toList, .object (submitter.map Json.WrittenMember.member),
      ' ' :: "\x7b\"email\":true ,\n\"name\":7\x7d".toList⟩,
    ⟨"type", "\"type\"".toList, .string "ref-updated", '"' :: "ref-updated\"".toList⟩]

theorem spaces_singleton {c : Char} (space : Json.Reader.isSpace c = true) : Json.IsSpaces [c] :=
  List.forall_mem_singleton.mpr space

theorem writes_submitter (levels : Nat) :
    Json.Writes (levels + 2) (.object (submitter.map Json.WrittenMember.member))
      "\x7b\"email\":true ,\n\"name\":7\x7d".toList := by
  have email : Json.WritesKey "email" "\"email\"".toList :=
    ⟨[], "email\"".toList, [], _, .nil, .nil, rfl, rfl⟩
  have name : Json.WritesKey "name" "\n\"name\"".toList :=
    ⟨['\n'], "name\"".toList, [], _, spaces_singleton rfl, .nil, rfl, rfl⟩
  have yes : Json.Writes (levels + 1) (.bool true) ("true".toList ++ [' ']) :=
    .back (spaces_singleton rfl) (.scalar (.bool true) rfl)
  have seven : Json.Writes (levels + 1) (.integer 7) "7".toList := .scalar (.integer 7) rfl
  have keys : ∀ x ∈ submitter, Json.WritesKey x.key x.keyText :=
    List.forall_mem_cons.mpr ⟨email, List.forall_mem_singleton.mpr name⟩
  have values : ∀ x ∈ submitter, Json.Writes (levels + 1) x.value x.valueText :=
    List.forall_mem_cons.mpr ⟨yes, List.forall_mem_singleton.mpr seven⟩
  exact .object keys values

/-- The second line is written so, with other blanks around. -/
theorem exists_writes :
    ∃ text, Json.Writes Json.Reader.levelLimit
      (.object (looseWritten.map Json.WrittenMember.member)) text ∧
        Text.Padded text loose.toList := by
  have account : Json.WritesKey "submitter" " \"submitter\" ".toList := by
    refine ⟨[' '], "submitter\"".toList, [' '], ⟨1, 10⟩, spaces_singleton rfl,
      spaces_singleton rfl, ?_, rfl⟩
    exact Json.eq_ok_of_passes of_decide_eq_true (by decide +kernel)
  have type : Json.WritesKey "type" "\"type\"".toList := by
    refine ⟨[], "type\"".toList, [], ⟨1, 5⟩, .nil, .nil, ?_, rfl⟩
    exact Json.eq_ok_of_passes of_decide_eq_true (by decide +kernel)
  have written := (writes_submitter 125).front (spaces_singleton (c := ' ') rfl)
  have kind : Json.Writes 127 (.string "ref-updated") ('"' :: "ref-updated\"".toList) := by
    refine .scalar (q := ⟨1, 13⟩) (.string _) ?_
    exact Json.eq_ok_of_same (by decide +kernel)
  have keys : ∀ x ∈ looseWritten, Json.WritesKey x.key x.keyText :=
    List.forall_mem_cons.mpr ⟨account, List.forall_mem_singleton.mpr type⟩
  have values : ∀ x ∈ looseWritten, Json.Writes 127 x.value x.valueText :=
    List.forall_mem_cons.mpr ⟨written, List.forall_mem_singleton.mpr kind⟩
  refine ⟨_, .object keys values, ['\u2003'], ['\t'], List.forall_mem_singleton.mpr rfl,
    List.forall_mem_singleton.mpr rfl, ?_⟩
  simp [loose, Json.WrittenMember.text]

theorem reordered : Json.Reordered (.object plainMembers)
    (.object (looseWritten.map Json.WrittenMember.member)) :=
  .trans (.object (.swap _ _ _)) (.member (.object (.swap _ _ _)) [] "submitter" _)

theorem keysDistinct : Json.KeysDistinct (.object plainMembers) := by
  simp [plainMembers]

end Arranged

open Arranged in
/-- Two lines, each in its own order and layout, are refused for one and the same member. -/
theorem arrangement_does_not_matter_faulty :
    Json.parse (Text.trim loose.toList) =
        .ok (.object (looseWritten.map Json.WrittenMember.member)) ∧
      parser.ofText plain none = parser.ofText loose none ∧
      (parser.ofText loose none).reading =
        .failed (.parse (.unplaced (.wrongType (.bool true) .text))) := by
  obtain ⟨text, writes, padded⟩ := exists_writes
  have parses : Json.parse (Text.trim plain.toList) = .ok (.object plainMembers) :=
    Json.parse_eq_ok_of_same (by decide +kernel)
  have parsesToo := (arrangement_does_not_matter none).2.1 loose text _ writes padded
  have same := (arrangement_does_not_matter none).1 plain loose _ _ parses parsesToo keysDistinct
    reordered
  have refused : (parser.ofText plain none).reading =
      .failed (.parse (.unplaced (.wrongType (.bool true) .text))) := by
    change (parseText plain none).reading = _
    rw [parseText_of_object parses]
    rfl
  exact ⟨parsesToo, same, same ▸ refused⟩

end ReviewHub.Stream
