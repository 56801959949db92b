import Mathlib.Data.List.DropRight
import SignalExchange.Proofs.Json.Entries

/-! Values that are passed over.

Passing over a value asks for less than reading it, and keeps the brackets that are open in a list
where the reader recurses. Whatever can be read can be passed over, and both end at the same place.
-/

set_option autoImplicit false

namespace SignalExchange

namespace Json

variable {α : Type} {rest after : List Char}

/-! Numbers -/

theorem eq_of_rounded {negative : Bool} {significand : Nat} {exponent : Int} {found : Number}
    (read : rounded negative significand exponent rest = .ok (found, after)) : after = rest := by
  unfold rounded at read
  split at read <;> cases read
  rfl

theorem dropWhile_of_exponentDigits {start : Nat} {digits : List Char} :
    match exponentDigits start digits with
    | .ok (_, rest) => rest = digits.dropWhile isDigit
    | .error rest => rest.dropWhile isDigit = digits.dropWhile isDigit := by
  fun_induction exponentDigits start digits with
  | case1 => rfl
  | case2 value c rest digit => simp [digit]
  | case3 value c rest digit fits ih => simpa [digit] using ih
  | case4 value c rest digit => simp [digit]

theorem skipExponent_of_exponentPart {negative : Bool} {significand : Nat} {start : Int}
    {found : Number} (read : exponentPart negative significand start rest = .ok (found, after)) :
    skipExponent rest = .ok ((), after) := by
  unfold exponentPart at read
  unfold skipExponent
  generalize exponentSign rest = sign at read ⊢
  obtain ⟨down, _ | ⟨c, digits⟩⟩ := sign
  · cases read
  · simp only at read ⊢
    split at read
    next digit =>
      have ends := @dropWhile_of_exponentDigits (digitValue c) digits
      rw [if_pos digit]
      split at read
      next value rest run =>
        rw [run] at ends
        rw [eq_of_rounded read, ends]
      next rest run =>
        rw [run] at ends
        split at read
        · cases read
        · cases read
          rw [ends]
    next => cases read

theorem skipExponent?_of_exponent? {negative : Bool} {significand : Nat} {start : Int}
    {found : Number} (read : exponent? negative significand start rest = .ok (found, after)) :
    skipExponent? rest = .ok ((), after) := by
  unfold exponent? at read
  split at read
  · exact skipExponent_of_exponentPart read
  · exact skipExponent_of_exponentPart read
  next lower upper =>
    rw [eq_of_rounded read]
    unfold skipExponent?
    split
    · exact absurd rfl (lower _)
    · exact absurd rfl (upper _)
    · rfl

theorem skipAfterWhole_of_afterWhole {negative : Bool} {significand dropped : Nat} {found : Number}
    (noDigit : ∀ c ∈ rest.head?, isDigit c = false)
    (read : afterWhole negative significand dropped rest = .ok (found, after)) :
    skipAfterWhole rest = .ok ((), after) := by
  unfold afterWhole at read
  split at read
  next rest =>
    unfold fractionPart at read
    rw [skipAfterWhole]
    generalize digitRun rest = run at read ⊢
    obtain ⟨_ | ⟨c, digits⟩, behind⟩ := run
    · cases behind <;> cases read
    · exact skipExponent?_of_exponent? read
  next rest => exact skipExponent_of_exponentPart read
  next rest => exact skipExponent_of_exponentPart read
  next point lower upper =>
    -- The number ends with its digits, and nothing behind them is looked at.
    have same : after = rest := by
      unfold whole at read
      split at read
      · split at read
        · cases read
          rfl
        · split at read
          · exact eq_of_rounded read
          · cases read
            rfl
      · exact eq_of_rounded read
    subst same
    cases after with
    | nil => rfl
    | cons c more =>
      rw [skipAfterWhole, if_neg (by simp [noDigit c rfl]), skipExponent?]
      · exact fun rest same => lower rest same
      · exact fun rest same => upper rest same
      · exact fun same => point more (by rw [same])

theorem skipNumber_of_number {negative : Bool} {found : Number}
    (read : number negative rest = .ok (found, after)) : skipNumber rest = .ok ((), after) := by
  unfold number at read
  split at read
  · cases read
  next rest =>
    split at read
    next run =>
      have noDigit : ∀ c ∈ rest.head?, isDigit c = false := by
        have none : rest.takeWhile isDigit = [] := congrArg Prod.fst run
        cases rest with
        | nil => simp
        | cons c more => simpa [List.takeWhile_cons] using none
      exact skipAfterWhole_of_afterWhole noDigit read
    next => cases read
  next c rest notZero =>
    split at read
    next digit =>
      have past : (c :: rest).dropWhile isDigit = rest.dropWhile isDigit := by simp [digit]
      have noDigit : ∀ c ∈ (rest.dropWhile isDigit).head?, isDigit c = false := by
        intro c first
        have stops := List.head?_dropWhile_not isDigit rest
        rw [first] at stops
        simpa using stops
      simp only [digitRun, past] at read
      rw [skipNumber, if_pos digit, if_neg notZero]
      exact skipAfterWhole_of_afterWhole noDigit read
    next => cases read

theorem length_dropWhile_le (p : Char → Bool) (rest : List Char) :
    (rest.dropWhile p).length ≤ rest.length := (List.dropWhile_sublist p).length_le

theorem length_exponentSign_le (rest : List Char) :
    (exponentSign rest).2.length ≤ rest.length := by
  unfold exponentSign
  split <;> simp

theorem length_of_skipExponent (read : skipExponent rest = .ok ((), after)) :
    after.length ≤ rest.length := by
  have most := length_exponentSign_le rest
  unfold skipExponent at read
  split at read
  · cases read
  next c digits signed =>
    rw [signed, List.length_cons] at most
    split at read
    · cases read
      have := length_dropWhile_le isDigit digits
      omega
    · cases read

theorem length_of_skipExponent? (read : skipExponent? rest = .ok ((), after)) :
    after.length ≤ rest.length := by
  unfold skipExponent? at read
  split at read
  · exact (length_of_skipExponent read).trans (Nat.le_succ _)
  · exact (length_of_skipExponent read).trans (Nat.le_succ _)
  · cases read
    exact Nat.le_refl _

theorem length_of_skipAfterWhole (read : skipAfterWhole rest = .ok ((), after)) :
    after.length ≤ rest.length := by
  unfold skipAfterWhole at read
  split at read
  next rest =>
    have most := length_dropWhile_le isDigit rest
    rw [digitRun] at read
    split at read
    · cases read
    next run =>
      cases run
      have := length_of_skipExponent? read
      simp only [List.length_cons]
      omega
  next =>
    split at read
    · cases read
    · exact length_of_skipExponent? read
  next =>
    cases read
    exact Nat.le_refl _

theorem length_of_skipNumber (read : skipNumber rest = .ok ((), after)) :
    after.length < rest.length := by
  unfold skipNumber at read
  split at read
  · cases read
  next c rest =>
    split at read
    next =>
      have fewer := length_dropWhile_le isDigit rest
      have most := length_of_skipAfterWhole read
      rw [List.length_cons]
      split at most <;> omega
    next => cases read

/-! Strings -/

theorem badHexEscape_ne_ok {read : α} :
    badHexEscape rest ≠ .ok read := by
  unfold badHexEscape
  split <;> exact nofun

theorem skipString_of_stringBody {chars : List Char}
    (read : stringBody rest = .ok (chars, after)) : skipString rest = .ok ((), after) := by
  fun_induction stringBody rest generalizing chars
  case case2 =>
    cases read
    simp [skipString]
  case case6 first _ _ _ _ _ _ _ _ second _ ih =>
    obtain ⟨⟨_, _⟩, inner, same⟩ := Except.map_eq_ok.1 read
    cases same
    simp [skipString, first, second, ih inner]
  case case13 unit _ _ ih =>
    obtain ⟨⟨_, _⟩, inner, same⟩ := Except.map_eq_ok.1 read
    cases same
    simp [skipString, unit, ih inner]
  case case16 escape ih =>
    obtain ⟨⟨_, _⟩, inner, same⟩ := Except.map_eq_ok.1 read
    cases same
    simp [skipString, escape, ih inner]
  case case19 ordinary ih =>
    obtain ⟨⟨_, _⟩, inner, same⟩ := Except.map_eq_ok.1 read
    cases same
    rw [skipString, if_neg ordinary, ih inner]
    all_goals assumption
  -- All other branches refuse the string.
  all_goals first | cases read | exact absurd read badHexEscape_ne_ok

theorem skipString_of_readString {text : String} (read : readString rest = .ok (text, after)) :
    skipString rest = .ok ((), after) := by
  obtain ⟨⟨chars, left⟩, body, same⟩ := Except.map_eq_ok.1 read
  cases same
  exact skipString_of_stringBody body

theorem length_of_skipString (read : skipString rest = .ok ((), after)) :
    after.length < rest.length := by
  fun_induction skipString rest
  case case2 =>
    cases read
    simp
  case case4 ih =>
    have := ih read
    simp only [List.length_cons]
    omega
  case case7 ih =>
    have := ih read
    simp only [List.length_cons]
    omega
  case case10 ih =>
    have := ih read
    simp only [List.length_cons]
    omega
  all_goals first | cases read | exact absurd read badHexEscape_ne_ok

theorem length_of_word {letters : List Char} (read : word letters rest = .ok ((), after)) :
    after.length ≤ rest.length := by
  fun_induction word letters rest with
  | case1 rest =>
    cases read
    exact Nat.le_refl _
  | case2 => cases read
  | case3 expected more rest ih => exact (ih read).trans (Nat.le_succ _)
  | case4 => cases read

theorem skipScalar_of_bare {v : Json} (read : bare rest = .ok (v, after)) :
    skipScalar rest = .ok ((), after) := by
  unfold bare at read
  split at read
  · cases read
  · obtain ⟨⟨⟨⟩, left⟩, passed, same⟩ := Except.bind_eq_ok.1 read
    cases same
    exact passed
  · obtain ⟨⟨⟨⟩, left⟩, passed, same⟩ := Except.bind_eq_ok.1 read
    cases same
    exact passed
  · obtain ⟨⟨⟨⟩, left⟩, passed, same⟩ := Except.bind_eq_ok.1 read
    cases same
    exact passed
  · obtain ⟨⟨found, left⟩, passed, same⟩ := Except.bind_eq_ok.1 read
    cases same
    exact skipNumber_of_number passed
  · obtain ⟨⟨text, left⟩, passed, same⟩ := Except.bind_eq_ok.1 read
    cases same
    exact skipString_of_readString passed
  next c rest n t f minus quote =>
    split at read
    next digit =>
      obtain ⟨⟨found, left⟩, passed, same⟩ := Except.bind_eq_ok.1 read
      cases same
      rw [skipScalar, if_pos digit]
      · exact skipNumber_of_number passed
      all_goals assumption
    next => cases read

theorem length_of_skipScalar (read : skipScalar rest = .ok ((), after)) :
    after.length < rest.length := by
  unfold skipScalar at read
  split at read
  · exact Nat.lt_succ_of_le (length_of_word read)
  · exact Nat.lt_succ_of_le (length_of_word read)
  · exact Nat.lt_succ_of_le (length_of_word read)
  · exact (length_of_skipNumber read).trans (Nat.lt_succ_self _)
  · exact (length_of_skipString read).trans (Nat.lt_succ_self _)
  · cases read
  · split at read
    · exact length_of_skipNumber read
    · cases read

/-! Brackets -/

theorem skipBlanks_skipBlanks (rest : List Char) : skipBlanks (skipBlanks rest) = skipBlanks rest :=
  List.dropWhile_idempotent isBlank rest

theorem length_skipBlanks_le (rest : List Char) : (skipBlanks rest).length ≤ rest.length :=
  (List.dropWhile_sublist isBlank).length_le

/-- What is passed over after the value before it. -/
def onward (fuel : Nat) : List Bracket × List Char → Except Fault (Unit × List Char)
  | ([], rest) => .ok ((), rest)
  | (open_, rest) => skipFrom fuel open_ rest

theorem skipFrom_succ (fuel : Nat) (open_ : List Bracket) (rest : List Char) :
    skipFrom (fuel + 1) open_ rest = skipStep open_ rest >>= onward fuel := by
  rw [skipFrom]
  rfl

theorem skipStep_of_skipBlanks {other : List Char} (same : skipBlanks rest = skipBlanks other)
    (open_ : List Bracket) : skipStep open_ rest = skipStep open_ other := by
  rw [skipStep, skipStep, same]

/-- A value and the text behind it, passed over in a number of steps whatever brackets are open. -/
structure Passed (steps : Nat) (rest after : List Char) : Prop where
  some : 0 < steps
  shorter : steps + after.length ≤ rest.length
  skips : ∀ fuel open_,
    skipFrom (steps + fuel) open_ rest = skipClosings open_ after >>= onward fuel

theorem skipValue_of_passed {steps : Nat} (passed : Passed steps rest after) :
    skipValue rest = .ok ((), after) := by
  obtain ⟨fuel, enough⟩ : ∃ fuel, rest.length + 1 = steps + fuel :=
    ⟨rest.length + 1 - steps, by have := passed.shorter; omega⟩
  rw [skipValue, enough, passed.skips]
  rfl

/-- From an opening bracket or from an item to the next item. -/
def between (first : Bool) (bracket : Bracket) (outer : List Bracket) (rest : List Char) :
    Except Fault (List Bracket × List Char) :=
  if first then skipOpening bracket outer rest else skipClosings (bracket :: outer) rest

theorem between_close (bracket : Bracket) {behind : List Char}
    (closes : skipBlanks rest = bracket.close :: behind) (first : Bool) (outer : List Bracket) :
    between first bracket outer rest = skipClosings outer behind := by
  have notComma : bracket.close ≠ ',' := by cases bracket <;> decide
  cases first with
  | true => simp [between, skipOpening, closes]
  | false => simp [between, skipClosings, closes, notComma]

/-- Where the next item starts: at once, or behind a comma. -/
def NextAt (first : Bool) (bracket : Bracket) (rest : List Char) (c : Char) (inner : List Char) :
    Prop :=
  if first then skipBlanks rest = c :: inner ∧ c ≠ bracket.close
  else ∃ past, skipBlanks rest = ',' :: past ∧ skipBlanks past = c :: inner

theorem NextAt.length_lt {first : Bool} {bracket : Bracket} {c : Char} {inner : List Char}
    (starts : NextAt first bracket rest c inner) : inner.length < rest.length := by
  have most := length_skipBlanks_le rest
  cases first with
  | true =>
    have starts : skipBlanks rest = c :: inner := starts.1
    rw [starts, List.length_cons] at most
    exact most
  | false =>
    obtain ⟨past, comma, starts⟩ := starts
    have mostPast := length_skipBlanks_le past
    rw [comma, List.length_cons] at most
    rw [starts, List.length_cons] at mostPast
    omega

theorem between_item {bracket : Bracket} {inner : List Char} {c : Char} {first : Bool}
    (starts : NextAt first bracket rest c inner) (outer : List Bracket) :
    ∃ entered, skipBlanks entered = c :: inner ∧
      between first bracket outer rest =
        (bracket.enter entered).map fun rest => (bracket :: outer, rest) := by
  cases first with
  | true =>
    obtain ⟨starts, other⟩ := starts
    refine ⟨c :: inner, by rw [← starts, skipBlanks_skipBlanks], ?_⟩
    simp [between, skipOpening, starts, other]
  | false =>
    obtain ⟨past, comma, starts⟩ := starts
    exact ⟨past, starts, by simp [between, skipClosings, comma]⟩

theorem length_of_colon (read : colon rest = .ok ((), after)) : after.length < rest.length := by
  have most := length_skipBlanks_le rest
  unfold colon at read
  split at read
  · cases read
  next starts =>
    cases read
    rw [starts, List.length_cons] at most
    exact most
  · cases read

theorem nextItem_eq_ok {first more : Bool} (next : nextItem first rest = .ok (more, after)) :
    (more = false ∧ ∃ behind, after = ']' :: behind ∧ skipBlanks rest = after) ∨
    more = true ∧ ∃ c inner, after = c :: inner ∧ NextAt first .list rest c inner := by
  unfold nextItem at next
  split at next
  · cases next
  next behind starts =>
    cases next
    exact .inl ⟨rfl, behind, rfl, starts⟩
  next c inner other starts =>
    cases first with
    | true =>
      cases next
      exact .inr ⟨rfl, c, inner, rfl, starts, other⟩
    | false =>
      simp only [Bool.false_eq_true, if_false] at next
      split at next
      next comma =>
        subst comma
        split at next
        · cases next
        · cases next
        next notNil notClose =>
          cases next
          cases begins : skipBlanks inner with
          | nil => exact absurd begins notNil
          | cons c more => exact .inr ⟨rfl, c, more, rfl, inner, starts, begins⟩
      next => cases next

theorem nextKey_eq_ok {first more : Bool} (next : nextKey first rest = .ok (more, after)) :
    (more = false ∧ ∃ behind, after = '\x7d' :: behind ∧ skipBlanks rest = after) ∨
    more = true ∧ NextAt first .object rest '"' after := by
  unfold nextKey at next
  split at next
  · cases next
  next behind starts =>
    cases next
    exact .inl ⟨rfl, behind, rfl, starts⟩
  next c inner other starts =>
    cases first with
    | true =>
      simp only [if_true] at next
      split at next
      next quote =>
        cases next
        exact .inr ⟨rfl, by rw [starts, quote], by decide⟩
      next => cases next
    | false =>
      simp only [Bool.false_eq_true, if_false] at next
      split at next
      next comma =>
        subst comma
        split at next
        · cases next
        next left begins =>
          cases next
          exact .inr ⟨rfl, inner, starts, begins⟩
        · cases next
        · cases next
      next => cases next

theorem valueWith_skipBlanks
    (enter : String → Json → List (String × Json) → List (String × Json)) (levels : Nat)
    (rest : List Char) : valueWith enter levels (skipBlanks rest) = valueWith enter levels rest := by
  rw [valueWith, valueWith, skipBlanks_skipBlanks]

/-! Values -/

section

variable {item : Scanner α} {first : Bool}

theorem Passed.of_skipBlanks {steps : Nat} {c : Char} {inner : List Char}
    (passed : Passed steps (c :: inner) after) (starts : skipBlanks rest = c :: inner) :
    Passed steps rest after := by
  have starts' : skipBlanks (c :: inner) = c :: inner := by rw [← starts, skipBlanks_skipBlanks]
  have most := length_skipBlanks_le rest
  rw [starts] at most
  refine ⟨passed.some, passed.shorter.trans most, fun fuel open_ => ?_⟩
  obtain ⟨more, rfl⟩ := Nat.exists_eq_succ_of_ne_zero (Nat.ne_of_gt passed.some)
  rw [← passed.skips, Nat.succ_add, skipFrom_succ, skipFrom_succ,
    skipStep_of_skipBlanks (starts.trans starts'.symm)]

/-- Items that are read are passed over, up to the bracket that closes their list. -/
theorem passed_items (reads : ∀ {rest after v}, item rest = .ok (v, after) →
      ∃ steps, Passed steps rest after) {count : Nat} {values : List α}
    (read : items item count first rest = .ok (values, after)) :
    ∃ steps behind, after = ']' :: behind ∧ steps + after.length ≤ rest.length ∧
      ∀ fuel outer, between first .list outer rest >>= onward (steps + fuel) =
        skipClosings outer behind >>= onward fuel := by
  induction count generalizing first rest values with
  | zero => cases read
  | succ count ih =>
    rw [items] at read
    obtain ⟨⟨more, left⟩, next, read⟩ := Except.bind_eq_ok.1 read
    rcases nextItem_eq_ok next with ⟨rfl, behind, rfl, closes⟩ | ⟨rfl, c, inner, rfl, starts⟩
    · cases read
      refine ⟨0, behind, rfl, ?_, fun fuel outer => ?_⟩
      · rw [← closes, Nat.zero_add]
        exact length_skipBlanks_le rest
      · rw [between_close .list closes, Nat.zero_add]
    · obtain ⟨⟨v, left⟩, here, read⟩ := Except.bind_eq_ok.1 read
      obtain ⟨⟨values, closing⟩, there, same⟩ := Except.bind_eq_ok.1 read
      cases same
      obtain ⟨steps, passed⟩ := reads here
      obtain ⟨more, behind, rfl, shorter, skips⟩ := ih there
      refine ⟨steps + more, behind, rfl, ?_, fun fuel outer => ?_⟩
      · have := passed.shorter.trans starts.length_lt
        omega
      · obtain ⟨entered, begins, across⟩ := between_item starts outer
        rw [across, Nat.add_assoc, ← skips]
        exact (passed.of_skipBlanks begins).skips (more + fuel) (.list :: outer)

/-- Members that are read are passed over, up to the brace that closes their object. -/
theorem passed_members {σ : Type} {member : σ → String → Scanner σ}
    (reads : ∀ {state key rest after next}, member state key rest = .ok (next, after) →
      ∃ steps behind, colon rest = .ok ((), behind) ∧ Passed steps behind after) {count : Nat}
    {state final : σ} (read : members member count first state rest = .ok (final, after)) :
    ∃ steps behind, after = '\x7d' :: behind ∧ steps + after.length ≤ rest.length ∧
      ∀ fuel outer, between first .object outer rest >>= onward (steps + fuel) =
        skipClosings outer behind >>= onward fuel := by
  induction count generalizing first rest state with
  | zero => cases read
  | succ count ih =>
    rw [members] at read
    obtain ⟨⟨more, left⟩, next, read⟩ := Except.bind_eq_ok.1 read
    rcases nextKey_eq_ok next with ⟨rfl, behind, rfl, closes⟩ | ⟨rfl, starts⟩
    · cases read
      refine ⟨0, behind, rfl, ?_, fun fuel outer => ?_⟩
      · rw [← closes, Nat.zero_add]
        exact length_skipBlanks_le rest
      · rw [between_close .object closes, Nat.zero_add]
    · obtain ⟨⟨key, named⟩, keyRead, read⟩ := Except.bind_eq_ok.1 read
      obtain ⟨⟨next, left⟩, here, there⟩ := Except.bind_eq_ok.1 read
      obtain ⟨steps, value, past, passed⟩ := reads here
      obtain ⟨more, behind, rfl, shorter, skips⟩ := ih there
      refine ⟨steps + more, behind, rfl, ?_, fun fuel outer => ?_⟩
      · have := passed.shorter
        have := length_of_colon past
        have := length_of_skipString (skipString_of_readString keyRead)
        have := starts.length_lt
        omega
      · obtain ⟨entered, begins, across⟩ := between_item starts outer
        -- A key is passed over on the way in, with its colon.
        have entering : Bracket.object.enter entered = .ok value := by
          simp [Bracket.enter, skipKey, begins, skipString_of_readString keyRead, past]
        rw [across, entering, Nat.add_assoc, ← skips]
        exact passed.skips (more + fuel) (.object :: outer)

end

theorem eq_of_closeList {behind : List Char} (closed : closeList (']' :: behind) = .ok ((), after)) :
    after = behind := by
  cases closed
  rfl

theorem eq_of_closeObject {behind : List Char}
    (closed : closeObject ('\x7d' :: behind) = .ok ((), after)) : after = behind := by
  cases closed
  rfl

theorem passed_of_valueWith {enter : String → Json → List (String × Json) → List (String × Json)}
    {levels : Nat} {v : Json} (read : valueWith enter levels rest = .ok (v, after)) :
    ∃ steps, Passed steps rest after := by
  -- By induction on the levels that are left: what stands inside a bracket is read with one less.
  induction levels using Nat.strongRecOn generalizing rest v after with
  | ind levels ih =>
    have most := length_skipBlanks_le rest
    cases holds_of_valueWith read with
    | list opening inside closed =>
      obtain ⟨steps, behind, rfl, shorter, skips⟩ :=
        passed_items (ih _ (Nat.lt_succ_self _)) inside
      obtain rfl := eq_of_closeList closed
      rw [opening, List.length_cons] at most
      rw [List.length_cons] at shorter
      refine ⟨steps + 1, Nat.succ_pos steps, by omega, fun fuel open_ => ?_⟩
      rw [Nat.add_right_comm, skipFrom_succ, skipStep, opening]
      exact skips fuel open_
    | @object levels _ _ _ _ _ opening inside closed =>
      -- A member is a key with a colon, which are passed over in one step, and a value inside.
      have reads {state next : List (String × Json)} {key : String} {rest after : List Char}
          (step : entryInto enter (valueWith enter levels) state key rest = .ok (next, after)) :
          ∃ steps behind, colon rest = .ok ((), behind) ∧ Passed steps behind after := by
        obtain ⟨⟨⟨⟩, behind⟩, past, step⟩ := Except.bind_eq_ok.1 step
        obtain ⟨⟨v, left⟩, here, same⟩ := Except.bind_eq_ok.1 step
        cases same
        obtain ⟨steps, passed⟩ := ih _ (Nat.lt_succ_self _) here
        exact ⟨steps, behind, past, passed⟩
      obtain ⟨steps, behind, rfl, shorter, skips⟩ := passed_members reads inside
      obtain rfl := eq_of_closeObject closed
      rw [opening, List.length_cons] at most
      rw [List.length_cons] at shorter
      refine ⟨steps + 1, Nat.succ_pos steps, by omega, fun fuel open_ => ?_⟩
      rw [Nat.add_right_comm, skipFrom_succ, skipStep, opening]
      exact skips fuel open_
    | bare starts notList notObject scanned =>
      have skipped := skipScalar_of_bare scanned
      have fewer := length_of_skipScalar skipped
      rw [starts] at most
      refine ⟨1, Nat.one_pos, by omega, fun fuel open_ => ?_⟩
      rw [Nat.add_comm, skipFrom_succ, skipStep, starts]
      split
      next same => exact absurd (List.cons.inj same).1 notList
      next same => exact absurd (List.cons.inj same).1 notObject
      next =>
        rw [skipped]
        rfl

theorem skipValue_of_valueWith
    {enter : String → Json → List (String × Json) → List (String × Json)} {levels : Nat} {v : Json}
    (read : valueWith enter levels rest = .ok (v, after)) : skipValue rest = .ok ((), after) := by
  obtain ⟨steps, passed⟩ := passed_of_valueWith read
  exact skipValue_of_passed passed

end Json

end SignalExchange
