import Mathlib.Data.List.TakeWhile
import ReviewHub.Proofs.Event.Direct
import ReviewHub.Proofs.Json.Token
import ReviewHub.Proofs.Text.Blank

/-!
# Layout

How a JSON value is written, said without the reader of values: a list or an object is its brackets
with what stands in it between commas, and around every token there may be as many blanks as one
likes. Whatever the layout is, the value that is written is the one that is read. The induction is
on how the value is written, and what it carries is that the value is read where anything stands
behind it that can follow, up to blanks that have not been looked at.
-/

namespace ReviewHub.Json

/-- Nothing but blanks that may stand between tokens. -/
def IsSpaces (gap : List Char) : Prop := ∀ c ∈ gap, Reader.isSpace c = true

theorem IsSpaces.nil : IsSpaces [] := nofun

/-- The text is a string between blanks, the key. -/
def WritesKey (key : String) (text : List Char) : Prop :=
  ∃ front token back q, IsSpaces front ∧ IsSpaces back ∧
    Reader.string (Cursor.ofText token) = .ok (key, ⟨[], q⟩) ∧ text = front ++ '"' :: token ++ back

/-- A member as it is written. -/
structure WrittenMember where
  key : String
  keyText : List Char
  value : Json
  valueText : List Char

namespace WrittenMember

/-- What is written. -/
def member (m : WrittenMember) : String × Json := (m.key, m.value)

/-- How it is written. -/
def text (m : WrittenMember) : List Char := m.keyText ++ ':' :: m.valueText

theorem text_append (m : WrittenMember) (rest : List Char) :
    m.text ++ rest = m.keyText ++ ':' :: (m.valueText ++ rest) := by
  rw [text, List.append_assoc, List.cons_append]

end WrittenMember

/-- The value is neither a list nor an object. -/
inductive IsScalar : Json → Prop where
  | null : IsScalar .null
  | bool (b : Bool) : IsScalar (.bool b)
  | integer (n : Int) : IsScalar (.integer n)
  | real (x : Float) : IsScalar (.real x)
  | string (s : String) : IsScalar (.string s)

/-- The text writes the value, with lists and objects nested less than so many levels deep. -/
inductive Writes : Nat → Json → List Char → Prop where
  | scalar {levels : Nat} {x : Char} {cs : List Char} {v : Json} {q : Position}
      (scalar : IsScalar v)
      (token : Reader.scalar x (Cursor.ofText (x :: cs)) = .ok (v, ⟨[], q⟩)) :
      Writes levels v (x :: cs)
  | front {levels : Nat} {v : Json} {gap text : List Char} (spaces : IsSpaces gap)
      (inner : Writes levels v text) : Writes levels v (gap ++ text)
  | back {levels : Nat} {v : Json} {gap text : List Char} (spaces : IsSpaces gap)
      (inner : Writes levels v text) : Writes levels v (text ++ gap)
  | emptyList {levels : Nat} {gap : List Char} (spaces : IsSpaces gap) :
      Writes (levels + 2) (.array []) ('[' :: gap ++ [']'])
  | list {levels : Nat} {e : Json × List Char} {es : List (Json × List Char)}
      (elements : ∀ x ∈ e :: es, Writes (levels + 1) x.1 x.2) :
      Writes (levels + 2) (.array ((e :: es).map Prod.fst))
        ('[' :: (e.2 ++ es.flatMap fun x => ',' :: x.2) ++ [']'])
  | emptyObject {levels : Nat} {gap : List Char} (spaces : IsSpaces gap) :
      Writes (levels + 2) (.object []) ('{' :: gap ++ ['}'])
  | object {levels : Nat} {m : WrittenMember} {ms : List WrittenMember}
      (keys : ∀ x ∈ m :: ms, WritesKey x.key x.keyText)
      (values : ∀ x ∈ m :: ms, Writes (levels + 1) x.value x.valueText) :
      Writes (levels + 2) (.object ((m :: ms).map WrittenMember.member))
        ('{' :: (m.text ++ ms.flatMap fun x => ',' :: x.text) ++ ['}'])

namespace Reader

variable {α : Type} {gap cs rest text : List Char} {p : Position} {levels : Nat} {v : Json}
  {c d : Cursor} {x : Char}

/-! ### Blanks -/

theorem eq_of_isSpace (space : isSpace x = true) : x = ' ' ∨ x = '\n' ∨ x = '\t' ∨ x = '\r' := by
  simpa only [isSpace, Bool.or_eq_true, decide_eq_true_eq, or_assoc] using space

theorem peekToken_eq (cs : List Char) (p : Position) :
    peekToken ⟨cs, p⟩ = .ok ((cs.dropWhile isSpace).head?,
      ⟨cs.dropWhile isSpace, p.afterAll (cs.takeWhile isSpace)⟩) := rfl

theorem peekToken_spaces (spaces : IsSpaces gap) (cs : List Char) (p : Position) :
    peekToken ⟨gap ++ cs, p⟩ = peekToken ⟨cs, p.afterAll gap⟩ := by
  rw [peekToken_eq, peekToken_eq, List.takeWhile_append_of_pos spaces,
    List.dropWhile_append_of_pos spaces, Position.afterAll_append]

theorem peekToken_cons (shown : isSpace x = false) (cs : List Char) (p : Position) :
    peekToken ⟨x :: cs, p⟩ = .ok (some x, ⟨x :: cs, p⟩) := by
  have stops : ¬isSpace x = true := by simp [shown]
  rw [peekToken_eq, List.takeWhile_cons_of_neg stops, List.dropWhile_cons_of_neg stops]
  rfl

/-- A token behind blanks is seen, and the blanks are taken off. -/
theorem peekToken_token (spaces : IsSpaces gap) (shown : isSpace x = false) (cs : List Char)
    (p : Position) :
    peekToken ⟨gap ++ x :: cs, p⟩ = .ok (some x, ⟨x :: cs, p.afterAll gap⟩) := by
  rw [peekToken_spaces spaces, peekToken_cons shown]

theorem bind_spaces (spaces : IsSpaces gap) (f : Option Char → Reader α) (cs : List Char)
    (p : Position) :
    (peekToken >>= f) ⟨gap ++ cs, p⟩ = (peekToken >>= f) ⟨cs, p.afterAll gap⟩ := by
  change (peekToken _ >>= fun r => f r.1 r.2) = (peekToken _ >>= fun r => f r.1 r.2)
  rw [peekToken_spaces spaces]

/-- Blanks in front of a value do not matter. -/
theorem value_spaces (spaces : IsSpaces gap) (levels : Nat) (cs : List Char) (p : Position) :
    value levels ⟨gap ++ cs, p⟩ = value levels ⟨cs, p.afterAll gap⟩ := by
  have enough : cs.length < (gap ++ cs).length + 1 := by
    rw [List.length_append]
    omega
  rw [← valueWithin_eq_value (c := ⟨cs, p.afterAll gap⟩) levels enough]
  exact bind_spaces spaces _ cs p

/-- Where a value is read, a token is seen that closes no list, and the value is read from there. -/
theorem exists_token_of_value (read : value levels c = .ok (v, d)) :
    ∃ x b, peekToken c = .ok (some x, b) ∧ x ≠ ']' ∧ value levels b = .ok (v, d) := by
  obtain ⟨cs, p⟩ := c
  have spaces : IsSpaces (cs.takeWhile isSpace) := fun x stands => List.mem_takeWhile_imp stands
  have whole : cs.takeWhile isSpace ++ cs.dropWhile isSpace = cs := List.takeWhile_append_dropWhile
  have readThere : value levels ⟨cs.dropWhile isSpace, p.afterAll (cs.takeWhile isSpace)⟩ =
      .ok (v, d) := by
    rw [← value_spaces spaces, whole, read]
  obtain ⟨x?, b, seen, rest⟩ := bind_eq_ok_iff.mp read
  have place := (Prod.mk.inj (Except.ok.inj ((peekToken_eq cs p).symm.trans seen))).2
  cases x? with
  | none => cases rest
  | some x =>
      refine ⟨x, b, seen, ?_, place ▸ readThere⟩
      rintro rfl
      cases rest

/-- A scalar is read as a value. -/
theorem value_of_scalar (token : scalar x ⟨x :: cs, p⟩ = .ok (v, d)) (levels : Nat) :
    value levels ⟨x :: cs, p⟩ = .ok (v, d) := by
  have shown : isSpace x = false := by
    by_contra space
    rcases eq_of_isSpace (Bool.not_eq_false _ ▸ space) with rfl | rfl | rfl | rfl <;> cases token
  have noBracket : x = '[' → False := by
    rintro rfl
    cases token
  have noBrace : x = '{' → False := by
    rintro rfl
    cases token
  refine bind_eq_ok_iff.mpr ⟨some x, _, peekToken_cons shown cs p, ?_⟩
  simpa only [noBracket, noBrace] using token

/-- The value is read off the text where anything stands behind it that can follow, up to blanks. -/
def Takes (levels : Nat) (v : Json) (text : List Char) : Prop :=
  ∀ rest, CanFollow rest → ∀ p, ∃ gap q, IsSpaces gap ∧
    value levels ⟨text ++ rest, p⟩ = .ok (v, ⟨gap ++ rest, q⟩)

/-! ### Lists -/

/-- Reads an element as a tree to others, which stand in reverse. -/
def collectElement (levels : Nat) (xs : List Json) : Reader (List Json) := do
  return (← value levels) :: xs

/-- The tree of a list has its elements as they are collected. -/
theorem value_of_bracket (seen : peekToken c = .ok (some '[', d)) :
    value levels c =
      (do return .array (← list levels [] collectElement).reverse : Reader Json) d := by
  have short := (Consumes.peekToken c _ d seen).length_le
  have next := head?_of_peekToken seen
  have begun : value levels c =
      (do
        let xs ← list levels [] fun inner xs => return (← valueWithin inner c.rest.length) :: xs
        return .array xs.reverse : Reader Json) d := bind_of_eq_ok seen
  rw [begun]
  refine bind_congr (list_congr next ?_ ?_ levels []) fun _ _ _ => rfl
  · exact fun inner xs => (Consumes.valueWithin inner _).bind fun x => .pure _
  · intro inner xs e shorter
    exact bind_congr (valueWithin_eq_value inner (by omega)) fun _ _ _ => rfl

theorem nextElement_of_bracket (spaces : IsSpaces gap) (first : Bool) (rest : List Char)
    (p : Position) :
    nextElement first ⟨gap ++ ']' :: rest, p⟩ = .ok (false, ⟨']' :: rest, p.afterAll gap⟩) :=
  bind_of_eq_ok (peekToken_token spaces rfl rest p)

theorem nextElement_of_value (read : value levels c = .ok (v, d)) :
    ∃ b, nextElement true c = .ok (true, b) ∧ value levels b = .ok (v, d) := by
  obtain ⟨x, b, seen, noBracket, readThere⟩ := exists_token_of_value read
  refine ⟨b, bind_eq_ok_iff.mpr ⟨some x, b, seen, ?_⟩, readThere⟩
  simp only
  rfl

theorem nextElement_of_comma (spaces : IsSpaces gap)
    (read : value levels ⟨cs, (p.afterAll gap).after ','⟩ = .ok (v, d)) :
    ∃ b, nextElement false ⟨gap ++ ',' :: cs, p⟩ = .ok (true, b) ∧
      value levels b = .ok (v, d) := by
  obtain ⟨x, b, seen, noBracket, readThere⟩ := exists_token_of_value read
  refine ⟨b, bind_eq_ok_iff.mpr ⟨some ',', _, peekToken_token spaces rfl cs p, ?_⟩, readThere⟩
  refine bind_eq_ok_iff.mpr ⟨(), _, rfl, bind_eq_ok_iff.mpr ⟨some x, b, seen, ?_⟩⟩
  simp only
  rfl

/-- What is separated by commas and closed by a bracket can follow a value. -/
theorem canFollow_commas {β : Type} (f : β → List Char) (es : List β) (closes : Delimits x)
    (rest : List Char) : CanFollow ((es.flatMap fun e => ',' :: f e) ++ x :: rest) := by
  cases es with
  | nil =>
      rintro _ ⟨⟩
      exact closes
  | cons e es =>
      rintro _ ⟨⟩
      exact .comma

/-- So many characters leave enough fuel for what stands between them. -/
theorem length_lt_commas {β : Type} (f : β → List Char) (es : List β) (front : List Char) (x : Char)
    (rest : List Char) :
    es.length < (front ++ ((es.flatMap fun e => ',' :: f e) ++ x :: rest)).length := by
  induction es with
  | nil =>
      rw [List.length_append, List.length_append, List.length_cons, List.length_nil]
      omega
  | cons e es ih =>
      simp only [List.flatMap_cons, List.length_append, List.length_cons] at ih ⊢
      omega

/-- The elements that are left are read up to the bracket, if each of them is. -/
theorem foldElements_layout {es : List (Json × List Char)}
    (each : ∀ e ∈ es, Takes levels e.1 e.2) {fuel : Nat} (enough : es.length < fuel)
    (spaces : IsSpaces gap) (xs : List Json) (rest : List Char) (p : Position) :
    ∃ q, foldElements (collectElement levels) false xs fuel
        ⟨gap ++ ((es.flatMap fun e => ',' :: e.2) ++ ']' :: rest), p⟩ =
      .ok ((es.map Prod.fst).reverse ++ xs, ⟨']' :: rest, q⟩) := by
  induction es generalizing fuel gap xs p with
  | nil =>
      obtain ⟨fuel, rfl⟩ : ∃ n, fuel = n + 1 := ⟨fuel - 1, by omega⟩
      exact ⟨_, bind_of_eq_ok (nextElement_of_bracket spaces false rest p)⟩
  | cons e es ih =>
      obtain ⟨fuel, rfl⟩ : ∃ n, fuel = n + 1 := ⟨fuel - 1, by omega⟩
      obtain ⟨own, others⟩ := List.forall_mem_cons.mp each
      obtain ⟨gap', q, spacesLater, read⟩ :=
        own _ (canFollow_commas Prod.snd es .bracket rest) ((p.afterAll gap).after ',')
      obtain ⟨b, looked, readThere⟩ := nextElement_of_comma spaces read
      have collected := bind_of_eq_ok (f := fun x => pure (x :: xs)) readThere
      obtain ⟨q', folded⟩ := ih others (Nat.lt_of_succ_lt_succ enough) spacesLater (e.1 :: xs) q
      rw [List.flatMap_cons, List.append_assoc, List.map_cons, List.reverse_cons,
        List.append_assoc]
      exact ⟨q', bind_eq_ok_iff.mpr ⟨true, b, looked, bind_eq_ok_iff.mpr ⟨_, _, collected, folded⟩⟩⟩

/-- A list is read if what stands in its brackets is. -/
theorem value_of_foldElements {body : List Char} {xs : List Json} {q : Position}
    (folded : foldElements (collectElement (levels + 1)) true [] (body.length + 1)
      ⟨body, p.after '['⟩ = .ok (xs, ⟨']' :: rest, q⟩)) :
    value (levels + 2) ⟨'[' :: body, p⟩ = .ok (.array xs.reverse, ⟨rest, q.after ']'⟩) := by
  have listed : list (levels + 2) [] collectElement ⟨'[' :: body, p⟩ =
      .ok (xs, ⟨rest, q.after ']'⟩) :=
    nested_eq_ok_iff.mpr ⟨levels, _, rfl, rfl, bind_eq_ok_iff.mpr ⟨xs, _, folded, rfl⟩⟩
  rw [value_of_bracket (peekToken_cons rfl body p)]
  exact bind_eq_ok_iff.mpr ⟨xs, _, listed, rfl⟩

theorem takes_emptyList (spaces : IsSpaces gap) :
    Takes (levels + 2) (.array []) ('[' :: gap ++ [']']) := by
  intro rest _ p
  have text : '[' :: gap ++ [']'] ++ rest = '[' :: (gap ++ ']' :: rest) := by simp
  have folded : foldElements (collectElement (levels + 1)) true []
      ((gap ++ ']' :: rest).length + 1) ⟨gap ++ ']' :: rest, p.after '['⟩ =
        .ok ([], ⟨']' :: rest, (p.after '[').afterAll gap⟩) :=
    bind_of_eq_ok (nextElement_of_bracket spaces true rest (p.after '['))
  rw [text]
  exact ⟨[], _, IsSpaces.nil, value_of_foldElements folded⟩

theorem takes_list {e : Json × List Char} {es : List (Json × List Char)}
    (each : ∀ x ∈ e :: es, Takes (levels + 1) x.1 x.2) :
    Takes (levels + 2) (.array ((e :: es).map Prod.fst))
      ('[' :: (e.2 ++ es.flatMap fun x => ',' :: x.2) ++ [']']) := by
  intro rest _ p
  obtain ⟨own, others⟩ := List.forall_mem_cons.mp each
  have text : '[' :: (e.2 ++ es.flatMap fun x => ',' :: x.2) ++ [']'] ++ rest =
      '[' :: (e.2 ++ ((es.flatMap fun x => ',' :: x.2) ++ ']' :: rest)) := by simp
  obtain ⟨gap, q, spaces, read⟩ :=
    own _ (canFollow_commas Prod.snd es .bracket rest) (p.after '[')
  obtain ⟨b, looked, readThere⟩ := nextElement_of_value read
  have enough := length_lt_commas Prod.snd es e.2 ']' rest
  have collected := bind_of_eq_ok (f := fun x => pure [x]) readThere
  obtain ⟨q', folded⟩ := foldElements_layout others enough spaces [e.1] rest q
  have whole := value_of_foldElements <|
    bind_eq_ok_iff.mpr ⟨true, b, looked, bind_eq_ok_iff.mpr ⟨_, _, collected, folded⟩⟩
  rw [List.reverse_append, List.reverse_reverse] at whole
  rw [text]
  exact ⟨[], _, IsSpaces.nil, whole⟩

/-! ### Objects -/

open Event.Tagged (behindKey collect)

theorem canFollow_spaces (spaces : IsSpaces gap) (follows : CanFollow rest) :
    CanFollow (gap ++ rest) := by
  cases gap with
  | nil => exact follows
  | cons x gap =>
      rintro _ ⟨⟩
      rcases eq_of_isSpace (spaces x List.mem_cons_self) with rfl | rfl | rfl | rfl
      · exact .space
      · exact .newline
      · exact .tab
      · exact .carriageReturn

/-- A key is seen by its quote and is read up to the blanks before the colon. -/
theorem exists_key {key : String} (writes : WritesKey key text) (behind : List Char)
    (p : Position) :
    ∃ b back q, IsSpaces back ∧ peekToken ⟨text ++ ':' :: behind, p⟩ = .ok (some '"', b) ∧
      (do skip; string : Reader String) b = .ok (key, ⟨back ++ ':' :: behind, q⟩) := by
  obtain ⟨front, token, back, _, spaces, spacesBehind, read, rfl⟩ := writes
  have follows : CanFollow (back ++ ':' :: behind) :=
    canFollow_spaces spacesBehind (by rintro _ ⟨⟩; exact .colon)
  have whole : front ++ '"' :: token ++ back ++ ':' :: behind =
      front ++ '"' :: (token ++ (back ++ ':' :: behind)) := by simp
  obtain ⟨q, readThere⟩ :=
    Carries.string token _ key [] _ read _ follows ((p.afterAll front).after '"')
  rw [whole]
  exact ⟨_, back, q, spacesBehind, peekToken_token spaces rfl _ p, readThere⟩

theorem nextKey_of_brace (spaces : IsSpaces gap) (first : Bool) (rest : List Char)
    (p : Position) :
    nextKey first ⟨gap ++ '}' :: rest, p⟩ = .ok (none, ⟨'}' :: rest, p.afterAll gap⟩) :=
  bind_of_eq_ok (peekToken_token spaces rfl rest p)

theorem nextKey_of_member {m : WrittenMember} (key : WritesKey m.key m.keyText)
    (behind : List Char) (p : Position) :
    ∃ back q, IsSpaces back ∧ nextKey true ⟨m.text ++ behind, p⟩ =
      .ok (some m.key, ⟨back ++ ':' :: (m.valueText ++ behind), q⟩) := by
  obtain ⟨b, back, q, spaces, seen, read⟩ := exists_key key (m.valueText ++ behind) p
  rw [m.text_append]
  refine ⟨back, q, spaces, bind_eq_ok_iff.mpr ⟨_, b, seen, ?_⟩⟩
  exact map_eq_ok_iff.mpr ⟨m.key, read, rfl⟩

theorem nextKey_of_comma {m : WrittenMember} (spaces : IsSpaces gap)
    (key : WritesKey m.key m.keyText) (behind : List Char) (p : Position) :
    ∃ back q, IsSpaces back ∧ nextKey false ⟨gap ++ ',' :: (m.text ++ behind), p⟩ =
      .ok (some m.key, ⟨back ++ ':' :: (m.valueText ++ behind), q⟩) := by
  obtain ⟨b, back, q, spacesBehind, seen, read⟩ :=
    exists_key key (m.valueText ++ behind) ((p.afterAll gap).after ',')
  rw [m.text_append]
  refine ⟨back, q, spacesBehind, ?_⟩
  refine bind_eq_ok_iff.mpr ⟨some ',', _, peekToken_token spaces rfl _ p, ?_⟩
  refine bind_eq_ok_iff.mpr ⟨(), _, rfl, bind_eq_ok_iff.mpr ⟨_, b, seen, ?_⟩⟩
  exact map_eq_ok_iff.mpr ⟨m.key, read, rfl⟩

/-- What stands behind a key is read with it. -/
theorem collect_layout (takes : Takes levels v text) (spaces : IsSpaces gap)
    (follows : CanFollow rest) (key : String) (xs : List (String × Json)) (p : Position) :
    ∃ gap' q, IsSpaces gap' ∧ collect levels xs key ⟨gap ++ ':' :: (text ++ rest), p⟩ =
      .ok ((key, v) :: xs, ⟨gap' ++ rest, q⟩) := by
  obtain ⟨gap', q, spacesLater, read⟩ := takes rest follows ((p.afterAll gap).after ':')
  have passed : colon ⟨gap ++ ':' :: (text ++ rest), p⟩ =
      .ok ((), ⟨text ++ rest, (p.afterAll gap).after ':'⟩) :=
    bind_of_eq_ok (peekToken_token spaces rfl _ p)
  have behind : behindKey levels ⟨gap ++ ':' :: (text ++ rest), p⟩ =
      .ok (v, ⟨gap' ++ rest, q⟩) :=
    bind_eq_ok_iff.mpr ⟨(), _, passed, read⟩
  exact ⟨gap', q, spacesLater, bind_of_eq_ok behind⟩

/-- The members that are left are read up to the brace, if each of them is. -/
theorem foldMembers_layout {ms : List WrittenMember}
    (keys : ∀ m ∈ ms, WritesKey m.key m.keyText)
    (values : ∀ m ∈ ms, Takes levels m.value m.valueText) {fuel : Nat} (enough : ms.length < fuel)
    (spaces : IsSpaces gap) (xs : List (String × Json)) (rest : List Char) (p : Position) :
    ∃ q, foldMembers (collect levels) false xs fuel
        ⟨gap ++ ((ms.flatMap fun m => ',' :: m.text) ++ '}' :: rest), p⟩ =
      .ok ((ms.map WrittenMember.member).reverse ++ xs, ⟨'}' :: rest, q⟩) := by
  induction ms generalizing fuel gap xs p with
  | nil =>
      obtain ⟨fuel, rfl⟩ : ∃ n, fuel = n + 1 := ⟨fuel - 1, by omega⟩
      exact ⟨_, bind_of_eq_ok (nextKey_of_brace spaces false rest p)⟩
  | cons m ms ih =>
      obtain ⟨fuel, rfl⟩ : ∃ n, fuel = n + 1 := ⟨fuel - 1, by omega⟩
      obtain ⟨ownKey, otherKeys⟩ := List.forall_mem_cons.mp keys
      obtain ⟨own, others⟩ := List.forall_mem_cons.mp values
      have follows := canFollow_commas WrittenMember.text ms .brace rest
      obtain ⟨back, q, spacesBehind, looked⟩ := nextKey_of_comma spaces ownKey
        ((ms.flatMap fun m => ',' :: m.text) ++ '}' :: rest) p
      obtain ⟨gap', q', spacesLater, collected⟩ :=
        collect_layout own spacesBehind follows m.key xs q
      obtain ⟨q'', folded⟩ := ih otherKeys others (Nat.lt_of_succ_lt_succ enough) spacesLater
        (m.member :: xs) q'
      rw [List.flatMap_cons, List.append_assoc, List.cons_append, List.map_cons,
        List.reverse_cons, List.append_assoc]
      exact ⟨q'', bind_eq_ok_iff.mpr ⟨_, _, looked, bind_eq_ok_iff.mpr ⟨_, _, collected, folded⟩⟩⟩

/-- An object is read if what stands in its braces is. -/
theorem value_of_foldMembers {body : List Char} {xs : List (String × Json)} {q : Position}
    (folded : foldMembers (collect (levels + 1)) true [] (body.length + 1)
      ⟨body, p.after '{'⟩ = .ok (xs, ⟨'}' :: rest, q⟩)) :
    value (levels + 2) ⟨'{' :: body, p⟩ = .ok (.object xs.reverse, ⟨rest, q.after '}'⟩) := by
  have read : object (levels + 2) [] collect ⟨'{' :: body, p⟩ = .ok (xs, ⟨rest, q.after '}'⟩) :=
    nested_eq_ok_iff.mpr ⟨levels, _, rfl, rfl, bind_eq_ok_iff.mpr ⟨xs, _, folded, rfl⟩⟩
  rw [Event.Tagged.value_of_brace (peekToken_cons rfl body p)]
  exact bind_eq_ok_iff.mpr ⟨xs, _, read, rfl⟩

theorem takes_emptyObject (spaces : IsSpaces gap) :
    Takes (levels + 2) (.object []) ('{' :: gap ++ ['}']) := by
  intro rest _ p
  have text : '{' :: gap ++ ['}'] ++ rest = '{' :: (gap ++ '}' :: rest) := by simp
  have folded : foldMembers (collect (levels + 1)) true []
      ((gap ++ '}' :: rest).length + 1) ⟨gap ++ '}' :: rest, p.after '{'⟩ =
        .ok ([], ⟨'}' :: rest, (p.after '{').afterAll gap⟩) :=
    bind_of_eq_ok (nextKey_of_brace spaces true rest (p.after '{'))
  rw [text]
  exact ⟨[], _, IsSpaces.nil, value_of_foldMembers folded⟩

theorem takes_object {m : WrittenMember} {ms : List WrittenMember}
    (keys : ∀ x ∈ m :: ms, WritesKey x.key x.keyText)
    (values : ∀ x ∈ m :: ms, Takes (levels + 1) x.value x.valueText) :
    Takes (levels + 2) (.object ((m :: ms).map WrittenMember.member))
      ('{' :: (m.text ++ ms.flatMap fun x => ',' :: x.text) ++ ['}']) := by
  intro rest _ p
  obtain ⟨ownKey, otherKeys⟩ := List.forall_mem_cons.mp keys
  obtain ⟨own, others⟩ := List.forall_mem_cons.mp values
  have text : '{' :: (m.text ++ ms.flatMap fun x => ',' :: x.text) ++ ['}'] ++ rest =
      '{' :: (m.text ++ ((ms.flatMap fun x => ',' :: x.text) ++ '}' :: rest)) := by simp
  have follows := canFollow_commas WrittenMember.text ms .brace rest
  obtain ⟨back, q, spacesBehind, looked⟩ := nextKey_of_member ownKey
    ((ms.flatMap fun x => ',' :: x.text) ++ '}' :: rest) (p.after '{')
  obtain ⟨gap, q', spaces, collected⟩ := collect_layout own spacesBehind follows m.key [] q
  have enough := length_lt_commas WrittenMember.text ms m.text '}' rest
  obtain ⟨q'', folded⟩ := foldMembers_layout otherKeys others enough spaces [m.member] rest q'
  have whole := value_of_foldMembers <|
    bind_eq_ok_iff.mpr ⟨_, _, looked, bind_eq_ok_iff.mpr ⟨_, _, collected, folded⟩⟩
  rw [List.reverse_append, List.reverse_reverse] at whole
  rw [text]
  exact ⟨[], _, IsSpaces.nil, whole⟩

end Reader

/-- What is written is read, whatever follows. -/
theorem Writes.takes {levels : Nat} {v : Json} {text : List Char} (writes : Writes levels v text) :
    Reader.Takes levels v text := by
  induction writes with
  | @scalar levels x cs v q _ token =>
      intro rest follows p
      obtain ⟨q', read⟩ := Reader.CarriesAt.scalar x cs _ v [] q token rest follows p
      exact ⟨[], q', IsSpaces.nil, Reader.value_of_scalar read levels⟩
  | @front levels v gap text spaces _ ih =>
      intro rest follows p
      obtain ⟨gap', q, spacesLater, read⟩ := ih rest follows (p.afterAll gap)
      rw [List.append_assoc, Reader.value_spaces spaces]
      exact ⟨gap', q, spacesLater, read⟩
  | @back levels v gap text spaces _ ih =>
      intro rest follows p
      obtain ⟨gap', q, spacesLater, read⟩ :=
        ih (gap ++ rest) (Reader.canFollow_spaces spaces follows) p
      refine ⟨gap' ++ gap, q, List.forall_mem_append.mpr ⟨spacesLater, spaces⟩, ?_⟩
      rw [List.append_assoc, List.append_assoc]
      exact read
  | emptyList spaces => exact Reader.takes_emptyList spaces
  | list _ ih => exact Reader.takes_list ih
  | emptyObject spaces => exact Reader.takes_emptyObject spaces
  | object keys _ ih => exact Reader.takes_object keys ih

/-- So a text that writes a value, nested less deep than the limit, is read as it. -/
theorem Writes.parse_eq {v : Json} {text : List Char}
    (writes : Writes Reader.levelLimit v text) : parse text = .ok v := by
  obtain ⟨gap, q, spaces, read⟩ := writes.takes [] nofun ⟨1, 0⟩
  rw [List.append_nil] at read
  exact Reader.readWhole_eq_ok_iff.mpr ⟨_, ⟨[], q.afterAll gap⟩, read,
    Reader.peekToken_spaces spaces [] q⟩

/-! ### Trimming -/

theorem isBlank_of_isSpace {c : Char} (space : Reader.isSpace c = true) :
    Text.isBlank c = true := by
  rcases Reader.eq_of_isSpace space with rfl | rfl | rfl | rfl <;> rfl

/-- An object is written from brace to brace, with nothing but blanks around. -/
theorem Writes.exists_trimmed {levels : Nat} {ms : List (String × Json)} {text : List Char}
    (writes : Writes levels (.object ms) text) :
    ∃ core, Writes levels (.object ms) core ∧ Text.Padded core text ∧ Text.trim core = core := by
  generalize isObject : Json.object ms = v at writes
  induction writes with
  | scalar scalar =>
      cases isObject
      cases scalar
  | front spaces _ ih =>
      obtain ⟨core, writes, padded, trimmed⟩ := ih isObject
      have blank := fun c stands => isBlank_of_isSpace (spaces c stands)
      exact ⟨core, writes, padded.prepend blank, trimmed⟩
  | back spaces _ ih =>
      obtain ⟨core, writes, padded, trimmed⟩ := ih isObject
      have blank := fun c stands => isBlank_of_isSpace (spaces c stands)
      exact ⟨core, writes, padded.append blank, trimmed⟩
  | emptyList => cases isObject
  | list => cases isObject
  | emptyObject spaces => exact ⟨_, .emptyObject spaces, .refl _, Text.trim_of_ends rfl rfl _⟩
  | object keys values => exact ⟨_, .object keys values, .refl _, Text.trim_of_ends rfl rfl _⟩

end ReviewHub.Json
