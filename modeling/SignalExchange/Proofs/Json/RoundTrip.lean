import SignalExchange.Proofs.Ascending
import SignalExchange.Proofs.Except
import SignalExchange.Proofs.Json.Exact
import SignalExchange.Proofs.Json.Scalars
import SignalExchange.Json.Typed

/-! A document is read back from its text.

Each scanner is given the text of what it reads and anything behind it, and stops exactly at what
stands behind. The lemmas on lists and objects hold for every item and member scanner, so records
of a fixed shape are read back with them too.
-/

set_option autoImplicit false

namespace SignalExchange

namespace Json

/-- The scanner reads the value from its text and leaves what follows. -/
def ReadsBack {α : Type} (scanner : Scanner α) (text : List Char) (value : α) : Prop :=
  ∀ rest, EndsNumber rest → scanner (text ++ rest) = .ok (value, rest)

theorem skipBlanks_cons {c : Char} (notBlank : isBlank c = false) (rest : List Char) :
    skipBlanks (c :: rest) = c :: rest := by simp [skipBlanks, notBlank]

theorem ReadsBack.cons_append {α : Type} {scanner : Scanner α} {c : Char} {text : List Char}
    {value : α} (reads : ReadsBack scanner (c :: text) value) {rest : List Char}
    (ends : EndsNumber rest) : scanner (c :: (text ++ rest)) = .ok (value, rest) :=
  reads rest ends

/-! The first character of a value -/

/-- No blank and no closing bracket. -/
def StartsValue (text : List Char) : Prop :=
  ∃ c rest, text = c :: rest ∧ isBlank c = false ∧ c ≠ ']'

theorem StartsValue.skipBlanks {text : List Char} (starts : StartsValue text)
    (rest : List Char) : Json.skipBlanks (text ++ rest) = text ++ rest := by
  obtain ⟨c, more, rfl, notBlank, -⟩ := starts
  simp [Json.skipBlanks, notBlank]

theorem ne_of_isDigit {c d : Char} (digit : isDigit c = true) (other : isDigit d = false) :
    c ≠ d := by
  rintro rfl
  exact absurd digit (by simp [other])

theorem isBlank_of_isDigit {c : Char} (digit : isDigit c = true) : isBlank c = false := by
  simp [isBlank, ne_of_isDigit digit (by decide : isDigit ' ' = false),
    ne_of_isDigit digit (by decide : isDigit '\n' = false),
    ne_of_isDigit digit (by decide : isDigit '\t' = false),
    ne_of_isDigit digit (by decide : isDigit '\r' = false)]

theorem integerText_head (n : Int) :
    ∃ c rest, Integer.text n = c :: rest ∧ (c = '-' ∨ isDigit c = true) := by
  unfold Integer.text
  split
  · exact ⟨'-', _, rfl, .inl rfl⟩
  · have notEmpty : Nat.toDigits 10 n.natAbs ≠ [] := Nat.toDigits_ne_nil
    obtain ⟨c, rest, digits⟩ := List.exists_cons_of_ne_nil notEmpty
    have member : c ∈ Nat.toDigits 10 n.natAbs := digits ▸ List.mem_cons_self
    exact ⟨c, rest, digits, .inr (isDigit_of_mem_toDigits c member)⟩

theorem startsValue_print {v : Json} (exact_ : v.Exact) : StartsValue v.print := by
  cases v with
  | null => exact ⟨'n', _, rfl, rfl, by decide⟩
  | boolean value =>
    cases value with
    | true => exact ⟨'t', _, rfl, rfl, by decide⟩
    | false => exact ⟨'f', _, rfl, rfl, by decide⟩
  | integer n =>
    obtain ⟨c, rest, text, start⟩ := integerText_head n
    refine ⟨c, rest, text, ?_⟩
    rcases start with rfl | digit
    · exact ⟨rfl, by decide⟩
    · exact ⟨isBlank_of_isDigit digit, ne_of_isDigit digit (by decide)⟩
  | double x => exact exact_.elim
  | string s => exact ⟨'"', _, rfl, rfl, by decide⟩
  | array items => exact ⟨'[', _, rfl, rfl, by decide⟩
  | object entries => exact ⟨'\x7b', _, rfl, rfl, by decide⟩

/-! Scalars -/

section

variable {enter : String → Json → List (String × Json) → List (String × Json)}

/-- What starts with no bracket is read alike at all levels. -/
theorem valueWith_bare {rest inner : List Char} {c : Char} (starts : skipBlanks rest = c :: inner)
    (notList : c ≠ '[') (notObject : c ≠ '\x7b') (levels : Nat) :
    valueWith enter levels rest = bare (c :: inner) := by
  rw [valueWith, starts]
  split
  next same => exact absurd (List.cons.inj same).1 notList
  next same => exact absurd (List.cons.inj same).1 notObject
  next => rfl

theorem readsBack_bare {c : Char} {text : List Char} {v : Json}
    (reads : ReadsBack bare (c :: text) v) (notBlank : isBlank c = false) (notList : c ≠ '[')
    (notObject : c ≠ '\x7b') (levels : Nat) :
    ReadsBack (valueWith enter levels) (c :: text) v := by
  intro rest ends
  rw [List.cons_append, valueWith_bare (skipBlanks_cons notBlank _) notList notObject]
  exact reads rest ends

theorem bare_of_digit {c : Char} (digit : isDigit c = true) (rest : List Char) :
    bare (c :: rest) = (number false (c :: rest)).map fun read => (read.1.toJson, read.2) := by
  have n := ne_of_isDigit digit (by decide : isDigit 'n' = false)
  have t := ne_of_isDigit digit (by decide : isDigit 't' = false)
  have f := ne_of_isDigit digit (by decide : isDigit 'f' = false)
  have minus := ne_of_isDigit digit (by decide : isDigit '-' = false)
  have quote := ne_of_isDigit digit (by decide : isDigit '"' = false)
  simp only [bare, digit, if_true]
  cases number false (c :: rest) <;> rfl

theorem readsBack_integer {n : Int} (fits : Integer.FitsDocument n) (levels : Nat) :
    ReadsBack (valueWith enter levels) (Integer.text n) (.integer n) := by
  simp only [Integer.FitsDocument, Integer.least, Integer.greatestUnsigned] at fits
  have small : n.natAbs ≤ significandLimit := by
    unfold significandLimit
    omega
  unfold Integer.text
  split
  next negative =>
    refine readsBack_bare (fun rest ends => ?_) rfl (by decide) (by decide) levels
    obtain ⟨m, rfl⟩ := Int.exists_eq_neg_ofNat (Int.le_of_lt negative)
    rw [Int.natAbs_neg, Int.natAbs_natCast] at small ⊢
    have inRange : ¬Integer.least.natAbs < m := by
      simp only [Integer.least]
      omega
    have notZero : m ≠ 0 := by omega
    simp [bare, number_toDigits small ends, whole, notZero, inRange, Number.toJson]
  next notNegative =>
    -- The scanner decides by the first digit, so the digits are taken apart and put together again.
    have notEmpty : Nat.toDigits 10 n.natAbs ≠ [] := Nat.toDigits_ne_nil
    obtain ⟨c, more, digits⟩ := List.exists_cons_of_ne_nil notEmpty
    have digit : isDigit c = true := isDigit_of_mem_toDigits c (digits ▸ List.mem_cons_self)
    have same : (n.natAbs : Int) = n := Int.natAbs_of_nonneg (not_lt.1 notNegative)
    rw [digits]
    refine readsBack_bare (fun rest ends => ?_) (isBlank_of_isDigit digit)
      (ne_of_isDigit digit (by decide)) (ne_of_isDigit digit (by decide)) levels
    rw [List.cons_append, bare_of_digit digit, ← List.cons_append, ← digits,
      number_toDigits small ends]
    simp [whole, Except.map, Number.toJson, same]

theorem readsBack_string (text : String) (levels : Nat) :
    ReadsBack (valueWith enter levels) (printString text) (.string text) := by
  refine readsBack_bare (fun rest _ => ?_) rfl (by decide) (by decide) levels
  have read := readString_print text rest
  rw [List.cons_append, List.append_assoc, List.singleton_append]
  simp [bare, read]

end

/-! Lists -/

def following {α : Type} (show_ : α → List Char) (values : List α) : List Char :=
  values.flatMap fun value => ',' :: show_ value

def separated {α : Type} (show_ : α → List Char) : List α → List Char
  | [] => []
  | value :: more => show_ value ++ following show_ more

section

variable {α : Type} {item : Scanner α} {show_ : α → List Char}

theorem following_cons (value : α) (more : List α) (rest : List Char) :
    following show_ (value :: more) ++ rest =
      ',' :: (show_ value ++ (following show_ more ++ rest)) := by
  simp [following]

theorem endsNumber_following (values : List α) {close : Char} (stops : goesOn close = false)
    (rest : List Char) : EndsNumber (following show_ values ++ close :: rest) := by
  cases values with
  | nil => exact endsNumber_cons stops rest
  | cons value more => exact endsNumber_cons (by decide) _

theorem length_following_le (values : List α) :
    values.length ≤ (following show_ values).length := by
  induction values with
  | nil => exact Nat.zero_le _
  | cons value more ih =>
    rw [following] at ih
    simp only [following, List.flatMap_cons, List.length_append, List.length_cons]
    omega

theorem nextItem_close (first : Bool) (rest : List Char) :
    nextItem first (']' :: rest) = .ok (false, ']' :: rest) := by
  simp [nextItem, skipBlanks, isBlank]

theorem nextItem_first {text : List Char} (starts : StartsValue text) (rest : List Char) :
    nextItem true (text ++ rest) = .ok (true, text ++ rest) := by
  obtain ⟨c, more, rfl, notBlank, notClose⟩ := starts
  simp [nextItem, skipBlanks, notBlank]

theorem nextItem_comma {text : List Char} (starts : StartsValue text) (rest : List Char) :
    nextItem false (',' :: (text ++ rest)) = .ok (true, text ++ rest) := by
  have stays := starts.skipBlanks rest
  obtain ⟨c, more, rfl, notBlank, notClose⟩ := starts
  rw [List.cons_append] at stays
  rw [nextItem, skipBlanks_cons (by decide)]
  simp [stays, notClose]

theorem items_following {values : List α}
    (reads : ∀ value ∈ values, StartsValue (show_ value) ∧ ReadsBack item (show_ value) value)
    {fuel : Nat} (enough : values.length < fuel) (rest : List Char) :
    items item fuel false (following show_ values ++ ']' :: rest) = .ok (values, ']' :: rest) := by
  induction values generalizing fuel with
  | nil =>
    obtain ⟨fuel, rfl⟩ := Nat.exists_eq_succ_of_ne_zero (Nat.ne_of_gt enough)
    simp [following, items, nextItem_close]
  | cons value more ih =>
    obtain ⟨fuel, rfl⟩ := Nat.exists_eq_succ_of_ne_zero (Nat.ne_of_gt (Nat.zero_lt_of_lt enough))
    obtain ⟨starts, reads_⟩ := reads value List.mem_cons_self
    have stops : goesOn ']' = false := by decide
    -- A number stops before the comma or bracket that follows it.
    have head := reads_ _ (@endsNumber_following α show_ more ']' stops rest)
    have tail := ih (fun other member => reads other (List.mem_cons_of_mem _ member))
      (Nat.lt_of_succ_lt_succ enough)
    rw [following_cons, items, nextItem_comma starts]
    simp [head, tail]

theorem inList_print {values : List α}
    (reads : ∀ value ∈ values, StartsValue (show_ value) ∧ ReadsBack item (show_ value) value)
    (rest : List Char) :
    inList (allItems item) (separated show_ values ++ ']' :: rest) = .ok (values, rest) := by
  have body : allItems item (separated show_ values ++ ']' :: rest) =
      .ok (values, ']' :: rest) := by
    cases values with
    | nil => simp [separated, allItems, items, nextItem_close]
    | cons value more =>
      obtain ⟨starts, reads_⟩ := reads value List.mem_cons_self
      have stops : goesOn ']' = false := by decide
      have head := reads_ _ (@endsNumber_following α show_ more ']' stops rest)
      -- Every item takes a character at least, so the length of the text is enough fuel.
      have enough : more.length <
          (separated show_ (value :: more) ++ ']' :: rest).length := by
        have atMost := @length_following_le α show_ more
        simp only [separated, List.length_append, List.length_cons]
        omega
      have tail := items_following
        (fun other member => reads other (List.mem_cons_of_mem _ member)) enough rest
      rw [allItems, items]
      generalize (separated show_ (value :: more) ++ ']' :: rest).length = fuel at tail
      rw [separated, List.append_assoc, nextItem_first starts]
      simp [head, tail]
  rw [inList, enclosed, body]
  simp [closeList, skipBlanks, isBlank, Except.map]

end

/-! Objects -/

def printEntry {α : Type} (show_ : α → List Char) (entry : String × α) : List Char :=
  printString entry.1 ++ ':' :: show_ entry.2

section

variable {σ α : Type} {member : σ → String → Scanner σ} {show_ : α → List Char}

theorem members_close (fuel : Nat) (first : Bool) (state : σ) (rest : List Char) :
    members member (fuel + 1) first state ('\x7d' :: rest) = .ok (state, '\x7d' :: rest) := by
  simp [members, nextKey, skipBlanks, isBlank]

theorem members_first (fuel : Nat) (state : σ) (key : String) (rest : List Char) :
    members member (fuel + 1) true state (printString key ++ rest) =
      member state key rest >>= fun read => members member fuel false read.1 read.2 := by
  simp [members, printString, nextKey, skipBlanks, isBlank, readString_print]

theorem members_next (fuel : Nat) (state : σ) (key : String) (rest : List Char) :
    members member (fuel + 1) false state (',' :: (printString key ++ rest)) =
      member state key rest >>= fun read => members member fuel false read.1 read.2 := by
  simp [members, printString, nextKey, skipBlanks, isBlank, readString_print]

inductive ReadsInTurn (member : σ → String → Scanner σ) (show_ : α → List Char) :
    σ → List (String × α) → σ → Prop where
  | nil (state : σ) : ReadsInTurn member show_ state [] state
  | cons {state next final : σ} {key : String} {value : α} {more : List (String × α)}
      (head : ReadsBack (member state key) (':' :: show_ value) next)
      (tail : ReadsInTurn member show_ next more final) :
      ReadsInTurn member show_ state ((key, value) :: more) final

theorem ReadsInTurn.ofFold {entries : List (String × α)} {step : σ → String × α → σ}
    (reads : ∀ entry ∈ entries, ∀ state,
      ReadsBack (member state entry.1) (':' :: show_ entry.2) (step state entry)) (state : σ) :
    ReadsInTurn member show_ state entries (entries.foldl step state) := by
  induction entries generalizing state with
  | nil => exact .nil state
  | cons entry more ih =>
    exact .cons (reads entry List.mem_cons_self state)
      (ih (fun other member => reads other (List.mem_cons_of_mem _ member)) (step state entry))

theorem members_following {state final : σ} {entries : List (String × α)}
    (reads : ReadsInTurn member show_ state entries final) {fuel : Nat}
    (enough : entries.length < fuel) (rest : List Char) :
    members member fuel false state (following (printEntry show_) entries ++ '\x7d' :: rest) =
      .ok (final, '\x7d' :: rest) := by
  induction reads generalizing fuel with
  | nil state =>
    obtain ⟨fuel, rfl⟩ := Nat.exists_eq_succ_of_ne_zero (Nat.ne_of_gt enough)
    exact members_close fuel false state rest
  | @cons state next final key value more head tail ih =>
    obtain ⟨fuel, rfl⟩ := Nat.exists_eq_succ_of_ne_zero (Nat.ne_of_gt (Nat.zero_lt_of_lt enough))
    have stops : goesOn '\x7d' = false := by decide
    have first := head _ (@endsNumber_following _ (printEntry show_) more '\x7d' stops rest)
    rw [following_cons, printEntry, List.append_assoc, members_next, first]
    exact ih (Nat.lt_of_succ_lt_succ enough)

theorem allMembers_print {state final : σ} {entries : List (String × α)}
    (reads : ReadsInTurn member show_ state entries final) (rest : List Char) :
    allMembers member state (separated (printEntry show_) entries ++ '\x7d' :: rest) =
      .ok (final, '\x7d' :: rest) := by
  cases reads with
  | nil => exact members_close _ true state rest
  | @cons _ next _ key value more head tail =>
    have enough : more.length <
        (separated (printEntry show_) ((key, value) :: more) ++ '\x7d' :: rest).length := by
      have atMost := @length_following_le _ (printEntry show_) more
      simp only [separated, List.length_append, List.length_cons]
      omega
    have behind := members_following tail enough rest
    have stops : goesOn '\x7d' = false := by decide
    have first := head _ (@endsNumber_following _ (printEntry show_) more '\x7d' stops rest)
    rw [allMembers]
    generalize (separated (printEntry show_) ((key, value) :: more) ++ '\x7d' :: rest).length = fuel
      at behind
    rw [separated, printEntry, List.append_assoc, List.append_assoc, members_first, first]
    exact behind

end

theorem objectOf_brace {β : Type} (expected : String) (body : Nat → Scanner β) (levels : Nat)
    (rest : List Char) :
    objectOf expected body (levels + 1) ('\x7b' :: rest) = inObject (body levels) rest := by
  simp [objectOf, skipBlanks_cons (by decide : isBlank '\x7b' = false)]

/-- What a body leaves before the closing brace is what it gives with the brace passed. -/
theorem inObject_of_body {β : Type} {body : Scanner β} {value : β} {text rest : List Char}
    (reads : body text = .ok (value, '\x7d' :: rest)) : inObject body text = .ok (value, rest) := by
  rw [inObject, enclosed, reads]
  simp [closeObject, skipBlanks, isBlank, Except.map]

/-! Documents -/

theorem printItems_eq (values : List Json) : printItems values = separated print values := by
  induction values with
  | nil => rfl
  | cons value more ih =>
    cases more with
    | nil => simp [printItems, separated, following]
    | cons next rest =>
      rw [printItems, ih]
      simp [separated, following]

theorem printEntries_eq (entries : List (String × Json)) :
    printEntries entries = separated (printEntry print) entries := by
  induction entries with
  | nil => rfl
  | cons entry more ih =>
    cases more with
    | nil => simp [printEntries, separated, following, printEntry]
    | cons next rest =>
      rw [printEntries, ih]
      simp [separated, following, printEntry]

theorem readsBack_member {α : Type} {item : Scanner α} {text : List Char} {value : α}
    (reads : ReadsBack item text value) : ReadsBack (member item) (':' :: text) value := by
  intro rest ends
  simp [member, colon, skipBlanks, isBlank, reads rest ends]

section

variable {enter : String → Json → List (String × Json) → List (String × Json)}

theorem readsBack_array {values : List Json} {levels : Nat}
    (reads : ∀ item ∈ values,
      StartsValue item.print ∧ ReadsBack (valueWith enter levels) item.print item) :
    ReadsBack (valueWith enter (levels + 1)) (print (.array values)) (.array values) := by
  intro rest _
  have inside := inList_print reads rest
  rw [print, printItems_eq, List.cons_append, List.append_assoc, List.singleton_append, valueWith,
    skipBlanks]
  simp [isBlank, inside]

theorem valueWith_brace (levels : Nat) (rest : List Char) :
    valueWith enter (levels + 1) ('\x7b' :: rest) =
      (inObject (allMembers (entryInto enter (valueWith enter levels)) []) rest).map fun read =>
        (.object read.1, read.2) := by
  rw [valueWith, skipBlanks_cons (by decide)]
  rfl

/-- Ascending entries that are put one to the other stay as they are. -/
def KeepsAscending (enter : String → Json → List (String × Json) → List (String × Json)) : Prop :=
  ∀ entries, Ascending entries →
    entries.foldl (fun held entry => enter entry.1 entry.2 held) [] = entries

theorem keepsAscending_insert : KeepsAscending Ascending.insert := fun entries ascending => by
  rw [Ascending.foldl_insert (by simpa using ascending), List.nil_append]

theorem readsBack_object (keeps : KeepsAscending enter) {entries : List (String × Json)}
    {levels : Nat} (ascending : Ascending entries)
    (reads : ∀ entry ∈ entries, ReadsBack (valueWith enter levels) entry.2.print entry.2) :
    ReadsBack (valueWith enter (levels + 1)) (print (.object entries)) (.object entries) := by
  intro rest _
  have one : ∀ entry ∈ entries, ∀ held : List (String × Json),
      ReadsBack (entryInto enter (valueWith enter levels) held entry.1) (':' :: print entry.2)
        (enter entry.1 entry.2 held) := by
    intro entry member held rest ends
    simp [entryInto, colon, skipBlanks, isBlank, reads entry member rest ends]
  have inTurn := ReadsInTurn.ofFold one []
  rw [keeps entries ascending] at inTurn
  rw [print, printEntries_eq, List.cons_append, List.append_assoc, List.singleton_append,
    valueWith_brace, inObject_of_body (allMembers_print inTurn rest)]
  rfl

-- By the structure of the document. Each bracket takes one of the levels, so the levels that are
-- left never fall below the depth of what is inside.
mutual

theorem readsBack_print (keeps : KeepsAscending enter) : (v : Json) → v.Exact → (levels : Nat) →
    v.depth ≤ levels → ReadsBack (valueWith enter levels) v.print v
  | .null, _, levels, _ => by
    refine readsBack_bare (fun rest _ => ?_) rfl (by decide) (by decide) levels
    simp [bare, word]
  | .boolean true, _, levels, _ => by
    refine readsBack_bare (fun rest _ => ?_) rfl (by decide) (by decide) levels
    simp [bare, word]
  | .boolean false, _, levels, _ => by
    refine readsBack_bare (fun rest _ => ?_) rfl (by decide) (by decide) levels
    simp [bare, word]
  | .integer n, fits, levels, _ => by
    rw [print]
    exact readsBack_integer fits levels
  | .string text, _, levels, _ => by
    rw [print]
    exact readsBack_string text levels
  | .array items, exact_, 0, deep => absurd deep (by simp [depth])
  | .array items, exact_, levels + 1, deep =>
    readsBack_array (readsBack_items keeps items exact_ levels (Nat.le_of_succ_le_succ deep))
  | .object entries, exact_, 0, deep => absurd deep (by simp [depth])
  | .object entries, exact_, levels + 1, deep =>
    readsBack_object keeps exact_.1
      (readsBack_entries keeps entries exact_.2 levels (Nat.le_of_succ_le_succ deep))

theorem readsBack_items (keeps : KeepsAscending enter) : (items : List Json) → ExactItems items →
    (levels : Nat) → itemsDepth items ≤ levels → ∀ item ∈ items,
    StartsValue item.print ∧ ReadsBack (valueWith enter levels) item.print item
  | [], _, _, _ => by simp
  | item :: more, exact_, levels, deep => by
    rw [itemsDepth, Nat.max_le] at deep
    exact List.forall_mem_cons.2
      ⟨⟨startsValue_print exact_.1, readsBack_print keeps item exact_.1 levels deep.1⟩,
        readsBack_items keeps more exact_.2 levels deep.2⟩

theorem readsBack_entries (keeps : KeepsAscending enter) : (entries : List (String × Json)) →
    ExactEntries entries → (levels : Nat) → entriesDepth entries ≤ levels →
    ∀ entry ∈ entries, ReadsBack (valueWith enter levels) entry.2.print entry.2
  | [], _, _, _ => by simp
  | (key, v) :: more, exact_, levels, deep => by
    rw [entriesDepth, Nat.max_le] at deep
    exact List.forall_mem_cons.2 ⟨readsBack_print keeps v exact_.1 levels deep.1,
      readsBack_entries keeps more exact_.2 levels deep.2⟩

end

end

theorem readWith_of_readsBack {α : Type} {scanner : Scanner α} {text : List Char} {value : α}
    (reads : ReadsBack scanner text value) :
    readWith scanner (String.ofList text) = .ok value := by
  have whole := reads [] endsNumber_nil
  rw [List.append_nil] at whole
  simp [readWith, finish, whole, skipBlanks, Except.mapError]

theorem read_text {v : Json} (exact_ : v.Exact) (shallow : v.depth ≤ nestingLimit) :
    read v.text = .ok v :=
  readWith_of_readsBack (readsBack_print keepsAscending_insert v exact_ nestingLimit shallow)

end Json

end SignalExchange
