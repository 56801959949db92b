import SignalExchange.Proofs.Json.Entries
import SignalExchange.Proofs.Json.RoundTrip
import SignalExchange.Proofs.Json.Skipped

/-! Values of a required shape, read from the texts of documents.

Not every document shows a value of a shape. Where a text holds a document that shows one, a scanner
of the shape reads this value, and it refuses the texts of all other documents.
-/

set_option autoImplicit false

namespace SignalExchange

namespace Json

variable {α β : Type}

theorem refuse_ne_ok {expected : String} {rest after : List Char} {value : α} :
    refuse expected rest ≠ .ok (value, after) := by
  intro read
  unfold refuse at read
  split at read
  · cases read
  · cases read
  · obtain ⟨_, -, read⟩ := Except.bind_eq_ok.1 read
    cases read

/-! Values that are no brackets -/

section

variable {accept : Json → Except Cause α} {expected : String}

theorem scalar_eq {c : Char} (notBlank : isBlank c = false) (notList : c ≠ '[')
    (notObject : c ≠ '\x7b') (rest : List Char) :
    scalar accept expected (c :: rest) = (do
      let (read, rest) ← value 0 (c :: rest)
      match accept read with
      | .ok accepted => return (accepted, rest)
      | .error cause => Fault.before cause rest) := by
  rw [scalar, skipBlanks_cons notBlank]
  split
  next same => exact absurd (List.cons.inj same).1 notList
  next same => exact absurd (List.cons.inj same).1 notObject
  next => rfl

theorem readsBack_scalar {c : Char} {more : List Char} {v : Json} {accepted : α}
    (reads : ReadsBack (value 0) (c :: more) v) (notBlank : isBlank c = false) (notList : c ≠ '[')
    (notObject : c ≠ '\x7b') (fits : accept v = .ok accepted) :
    ReadsBack (scalar accept expected) (c :: more) accepted := by
  intro rest ends
  rw [List.cons_append, scalar_eq notBlank notList notObject, reads.cons_append ends]
  simp [fits]

end

theorem scalar_eq_ok {accept : Json → Except Cause α} {expected : String} {rest after : List Char}
    {accepted : α} (read : scalar accept expected rest = .ok (accepted, after)) :
    ∃ v, value 0 rest = .ok (v, after) ∧ accept v = .ok accepted := by
  unfold scalar at read
  split at read
  · exact absurd read refuse_ne_ok
  · exact absurd read refuse_ne_ok
  · obtain ⟨⟨v, rest⟩, scanned, read⟩ := Except.bind_eq_ok.1 read
    rw [value, valueWith_skipBlanks] at scanned
    cases accepts : accept v with
    | error cause => simp [accepts, Fault.before] at read
    | ok found =>
      simp only [accepts] at read
      cases read
      exact ⟨v, scanned, accepts⟩

theorem skipValue_of_stringValue {rest after : List Char} {text : String}
    (read : stringValue rest = .ok (text, after)) : skipValue rest = .ok ((), after) := by
  obtain ⟨v, scanned, -⟩ := scalar_eq_ok read
  exact skipValue_of_valueWith scanned

theorem skipValue_of_booleanValue {rest after : List Char} {flag : Bool}
    (read : booleanValue rest = .ok (flag, after)) : skipValue rest = .ok ((), after) := by
  obtain ⟨v, scanned, -⟩ := scalar_eq_ok read
  exact skipValue_of_valueWith scanned

theorem readsBack_stringValue (text : String) :
    ReadsBack stringValue (print (.string text)) text := by
  have reads : ReadsBack (value 0) (printString text) (.string text) := readsBack_string text 0
  rw [printString] at reads
  rw [print, printString]
  exact readsBack_scalar reads rfl (by decide) (by decide) rfl

theorem readsBack_booleanValue (enabled : Bool) :
    ReadsBack booleanValue (print (.boolean enabled)) enabled := by
  have reads : ReadsBack (value 0) (print (.boolean enabled)) (.boolean enabled) :=
    readsBack_print keepsAscending_insert (.boolean enabled) trivial 0 (Nat.le_refl 0)
  cases enabled with
  | true => exact readsBack_scalar reads rfl (by decide) (by decide) rfl
  | false => exact readsBack_scalar reads rfl (by decide) (by decide) rfl

/-! What a document shows at a shape -/

def string? : Json → Option String
  | .string text => some text
  | _ => none

def integer? : Json → Option Int
  | .integer n => if Integer.InRange n then some n else none
  | _ => none

def pair? (first : Json → Option α) (second : Json → Option β) : Json → Option (α × β)
  | .array [a, b] => do return (← first a, ← second b)
  | _ => none

def boolean? : Json → Option Bool
  | .boolean value => some value
  | _ => none

def list? (view : Json → Option α) : Json → Option (List α)
  | .array items => items.mapM view
  | _ => none

def putLast (key : String) (v : Json) (entries : List (String × Json)) : List (String × Json) :=
  entries ++ [(key, v)]

/-- Reads a document as it is written, with every entry where it stands. -/
def written : Nat → Scanner Json := valueWith putLast

/-- Wherever a text holds a document, the scanner reads what the document shows and stops behind it.
It refuses a document that shows nothing. -/
def Follows (levels : Nat) (scanner : Scanner α) (view : Json → Option α) : Prop :=
  ∀ ⦃rest after : List Char⦄ ⦃v : Json⦄, written levels rest = .ok (v, after) →
    (scanner rest).toOption = (view v).map fun shown => (shown, after)

theorem keepsAscending_putLast : KeepsAscending putLast := fun entries _ => by
  unfold putLast
  rw [List.foldl_append_eq_append, List.nil_append]
  exact List.flatMap_singleton' entries

theorem readsBack_written {v : Json} (exact_ : v.Exact) {levels : Nat} (shallow : v.depth ≤ levels) :
    ReadsBack (written levels) v.print v :=
  readsBack_print keepsAscending_putLast v exact_ levels shallow

theorem toOption_refuse {expected : String} (rest : List Char) :
    (refuse expected rest : Except Fault (α × List Char)).toOption = none := by
  cases refused : (refuse expected rest : Except Fault (α × List Char)) with
  | error => rfl
  | ok read => exact absurd refused refuse_ne_ok

theorem follows_scalar {accept : Json → Except Cause α} {expected : String}
    {view : Json → Option α} (agrees : ∀ v, (accept v).toOption = view v)
    (noList : ∀ items, view (.array items) = none)
    (noObject : ∀ entries, view (.object entries) = none) (levels : Nat) :
    Follows levels (scalar accept expected) view := by
  intro rest after v read
  cases holds_of_valueWith read with
  | list opening =>
    rw [scalar, opening, noList]
    exact toOption_refuse _
  | object opening =>
    rw [scalar, opening, noObject]
    exact toOption_refuse _
  | bare starts notList notObject scanned =>
    have blanks := skipBlanks_skipBlanks rest
    rw [starts] at blanks
    rw [scalar, starts]
    split
    next same => exact absurd (List.cons.inj same).1 notList
    next same => exact absurd (List.cons.inj same).1 notObject
    next =>
      rw [value, valueWith_bare blanks notList notObject, scanned, ← agrees]
      cases accepts : accept v <;> simp [accepts, Fault.before]

theorem follows_stringValue (levels : Nat) : Follows levels stringValue string? :=
  follows_scalar (fun v => by cases v <;> rfl) (fun _ => rfl) (fun _ => rfl) levels

theorem follows_booleanValue (levels : Nat) : Follows levels booleanValue boolean? :=
  follows_scalar (fun v => by cases v <;> rfl) (fun _ => rfl) (fun _ => rfl) levels

theorem follows_integerValue (levels : Nat) : Follows levels integerValue integer? := by
  refine follows_scalar (fun v => ?_) (fun _ => rfl) (fun _ => rfl) levels
  cases v with
  | integer n =>
    simp only [asInteger, integer?]
    split <;> rfl
  | _ => rfl

/-! Lists -/

section

variable {expected : String} {rest after : List Char}

theorem element?_eq_ok {index : Nat} {item : Scanner α} {value : α} :
    element? index item rest = .ok (some value, after) ↔
      ∃ left, nextItem (index = 0) rest = .ok (true, left) ∧ item left = .ok (value, after) := by
  rw [element?]
  rcases nextItem (index = 0) rest with fault | ⟨more, left⟩
  · simp
  · cases more with
    | false => simp
    | true => cases ran : item left <;> simp [ran, Prod.ext_iff]

theorem element_eq_ok {index : Nat} {item : Scanner α} {value : α} :
    element index expected item rest = .ok (value, after) ↔
      element? index item rest = .ok (some value, after) := by
  rw [element]
  rcases element? index item rest with fault | ⟨_ | found, left⟩ <;>
    simp [Fault.waiting, Prod.ext_iff]

theorem listOf_bracket (body : Nat → Scanner α) (levels : Nat) (rest : List Char) :
    listOf expected body (levels + 1) ('[' :: rest) = inList (body levels) rest := by
  simp [listOf, skipBlanks_cons (by decide : isBlank '[' = false)]

end

section

variable {item : Scanner α} {view : Json → Option α} {levels : Nat} {rest after : List Char}

theorem Follows.items (follows : Follows levels item view) {count : Nat} {first : Bool}
    {values : List Json} (read : items (written levels) count first rest = .ok (values, after)) :
    (items item count first rest).toOption = (values.mapM view).map fun shown => (shown, after) := by
  induction count generalizing first rest values with
  | zero => cases read
  | succ count ih =>
    rw [Json.items] at read ⊢
    obtain ⟨⟨more, left⟩, next, read⟩ := Except.bind_eq_ok.1 read
    rw [next, Except.ok_bind]
    cases more with
    | false =>
      cases read
      rfl
    | true =>
      obtain ⟨⟨v, left⟩, here, read⟩ := Except.bind_eq_ok.1 read
      obtain ⟨⟨values, closing⟩, there, same⟩ := Except.bind_eq_ok.1 read
      cases same
      simp only [Except.toOption_bind, follows here, List.mapM_cons]
      cases view v with
      | none => rfl
      | some shown =>
        simp only [Option.map_some, Option.bind_some, ih there]
        cases values.mapM view <;> rfl

theorem toOption_enclosed (body : Scanner α) (close : Scanner Unit)
    (pass : List Char → List Char) (rest : List Char) : (enclosed body close pass rest).toOption =
      (body rest).toOption.bind fun read =>
        (close read.2).toOption.map fun closed => (read.1, closed.2) := by
  rw [enclosed]
  rcases body rest with fault | ⟨value, left⟩
  · rfl
  · cases closed : close left <;> simp [closed]

/-- A scanner of lists follows a view of lists when its body does, brackets included. -/
theorem follows_listOf {expected : String} {body : Nat → Scanner α} {view : Json → Option α}
    (inside : ∀ {levels : Nat} {inner closing after : List Char} {values : List Json},
      allItems (written levels) inner = .ok (values, closing) →
      closeList closing = .ok ((), after) → (inList (body levels) inner).toOption =
        (view (.array values)).map fun shown => (shown, after))
    (others : ∀ v, (∀ items, v ≠ .array items) → view v = none) (levels : Nat) :
    Follows levels (listOf expected body levels) view := by
  intro rest after v read
  unfold listOf
  cases holds_of_valueWith read with
  | list opening items closed =>
    rw [opening]
    exact inside items closed
  | object opening =>
    rw [opening, others _ (by rintro _ ⟨⟩)]
    exact toOption_refuse _
  | bare starts notList notObject scanned =>
    have none : view v = none := others v (kind_of_bare scanned).1
    rw [starts, none]
    split
    next same => exact absurd (List.cons.inj same).1 notList
    next same => exact absurd (List.cons.inj same).1 notList
    next => exact toOption_refuse _

theorem follows_sequence {item : Nat → Scanner α} {view : Json → Option α}
    (follows : ∀ levels, Follows levels (item levels) view) (levels : Nat) :
    Follows levels (sequence item levels) (list? view) := by
  refine follows_listOf (fun {_ _ _ _ values} items closed => ?_) (fun v other => ?_) levels
  · have shown := (follows _).items items
    rw [inList, toOption_enclosed, allItems, shown, list?]
    cases values.mapM view <;> simp [closed]
  · cases v with
    | array items => exact absurd rfl (other items)
    | _ => rfl

/-- The items that a list goes on with, and the text from its closing bracket on. -/
def GoesOn (levels : Nat) (first : Bool) (rest : List Char) (values : List Json)
    (closing : List Char) : Prop :=
  ∃ count, items (written levels) count first rest = .ok (values, closing)

theorem GoesOn.closeList {left closing : List Char} {values : List Json}
    (goesOn : GoesOn levels false left values closing) (closed : closeList closing = .ok ((), after)) :
    (closeList left).toOption = if values = [] then some ((), after) else none := by
  obtain ⟨_ | count, read⟩ := goesOn
  · cases read
  rw [Json.items] at read
  obtain ⟨⟨goes, left⟩, next, read⟩ := Except.bind_eq_ok.1 read
  rcases nextItem_eq_ok next with ⟨rfl, behind, rfl, closes⟩ | ⟨rfl, c, inner, rfl, starts⟩
  · cases read
    cases closed
    simp [Json.closeList, closes]
  · obtain ⟨⟨v, left⟩, -, read⟩ := Except.bind_eq_ok.1 read
    obtain ⟨⟨values, closing⟩, -, same⟩ := Except.bind_eq_ok.1 read
    cases same
    obtain ⟨past, comma, starts⟩ := starts
    simp only [Json.closeList, comma, starts]
    split <;> rfl

/-! Records as lists -/

/-- What was read of the items of a list, and the text where those that are left begin. -/
inductive Took (levels : Nat) (closing : List Char) :
    Except Fault (α × List Char) → Option (α × List Json) → Prop where
  | refused {fault : Fault} : Took levels closing (.error fault) none
  | took {shown : α} {left : List Char} {more : List Json}
      (goesOn : GoesOn levels false left more closing) :
      Took levels closing (.ok (shown, left)) (some (shown, more))

/-- The body reads what `take` takes of the items that a list goes on with. -/
def Takes (levels : Nat) (first : Bool) (body : Scanner α)
    (take : List Json → Option (α × List Json)) : Prop :=
  ∀ ⦃rest closing : List Char⦄ ⦃values : List Json⦄, GoesOn levels first rest values closing →
    Took levels closing (body rest) (take values)

def item? (view : Json → Option α) : List Json → Option (α × List Json)
  | [] => none
  | v :: more => (view v).map fun shown => (shown, more)

def lastItem? (view : Json → Option α) : List Json → Option (Option α × List Json)
  | [] => some (none, [])
  | v :: more => (view v).map fun shown => (some shown, more)

theorem takes_element? (follows : Follows levels item view) (index : Nat) :
    Takes levels (index = 0) (element? index item) (lastItem? view) := by
  rintro rest closing values ⟨_ | count, read⟩
  · cases read
  rw [Json.items] at read
  obtain ⟨⟨goes, left⟩, next, read⟩ := Except.bind_eq_ok.1 read
  rw [element?, next, Except.ok_bind]
  cases goes with
  | false =>
    cases read
    rcases nextItem_eq_ok next with ⟨-, behind, rfl, -⟩ | ⟨⟨⟩, -⟩
    -- The list ends here, and the next element finds the same bracket.
    refine .took ⟨1, ?_⟩
    rw [Json.items, nextItem_close]
    rfl
  | true =>
    obtain ⟨⟨v, left⟩, here, read⟩ := Except.bind_eq_ok.1 read
    obtain ⟨⟨values, closing⟩, there, same⟩ := Except.bind_eq_ok.1 read
    cases same
    have shown := follows here
    rw [lastItem?]
    cases view_ : view v with
    | none =>
      rw [view_] at shown
      obtain ⟨fault, failed⟩ := Except.toOption_eq_none.1 shown
      simpa [failed] using Took.refused
    | some found =>
      rw [view_] at shown
      simpa [Except.toOption_eq_some.1 shown] using Took.took ⟨count, there⟩

theorem takes_element (follows : Follows levels item view) (index : Nat) (expected : String) :
    Takes levels (index = 0) (element index expected item) (item? view) := by
  intro rest closing values goesOn
  have here := takes_element? follows index goesOn
  rw [element]
  generalize element? index item rest = read at here ⊢
  cases values with
  | nil =>
    cases here
    exact .refused
  | cons v more =>
    rw [lastItem?] at here
    rw [item?]
    generalize view v = shown at here ⊢
    cases shown with
    | none =>
      cases here
      exact .refused
    | some found =>
      cases here with
      | took goesOn => exact .took goesOn

theorem takes_pure (value : α) : Takes levels false (fun rest => return (value, rest))
    fun values => some (value, values) := fun _ _ _ goesOn => .took goesOn

theorem Takes.bind {first : Bool} {body : Scanner α} {take : List Json → Option (α × List Json)}
    {next : α → Scanner β} {takeNext : α → List Json → Option (β × List Json)}
    (takes : Takes levels first body take)
    (others : ∀ value, Takes levels false (next value) (takeNext value)) :
    Takes levels first (fun rest => body rest >>= fun read => next read.1 read.2)
      fun values => (take values).bind fun taken => takeNext taken.1 taken.2 := by
  intro rest closing values goesOn
  have here := takes goesOn
  dsimp only
  generalize body rest = read at here ⊢
  generalize take values = taken at here ⊢
  cases here with
  | refused => exact .refused
  | took goesOn => exact others _ goesOn

/-- What was taken, if no item is left. -/
def whole? (taken : α × List Json) : Option α := if taken.2 = [] then some taken.1 else none

theorem Takes.inList {body : Scanner α} {take : List Json → Option (α × List Json)}
    (takes : Takes levels true body take) {inner closing : List Char} {values : List Json}
    (read : allItems (written levels) inner = .ok (values, closing))
    (closed : Json.closeList closing = .ok ((), after)) : (inList body inner).toOption =
      ((take values).bind whole?).map fun shown => (shown, after) := by
  have here := takes ⟨_, read⟩
  rw [Json.inList, toOption_enclosed]
  generalize body inner = found at here ⊢
  generalize take values = taken at here ⊢
  cases here with
  | refused => rfl
  | took goesOn =>
    simp only [Except.toOption_ok, Option.bind_some, goesOn.closeList closed, whole?]
    split <;> rfl

theorem follows_pair {first : Scanner α} {second : Scanner β} {left : Json → Option α}
    {right : Json → Option β} (follows : ∀ levels, Follows levels first left)
    (also : ∀ levels, Follows levels second right) (levels : Nat) :
    Follows levels (pair first second levels) (pair? left right) := by
  refine follows_listOf (fun {levels _ _ _ values} items closed => ?_) (fun v other => ?_) levels
  · have takes := (takes_element (follows levels) 0 "a tuple of size 2").bind fun a =>
      (takes_element (also levels) 1 "a tuple of size 2").bind fun b => takes_pure (a, b)
    refine (takes.inList items closed).trans (congrArg _ ?_)
    match values with
    | [] => rfl
    | [v] => cases view : left v <;> simp [item?, pair?, view]
    | [v, w] =>
      cases view : left v <;> cases viewOther : right w <;>
        simp [item?, pair?, whole?, view, viewOther]
    | v :: w :: _ :: _ =>
      cases view : left v <;> cases viewOther : right w <;>
        simp [item?, pair?, whole?, view, viewOther]
  · cases v with
    | array items => exact absurd rfl (other items)
    | _ => rfl

end

/-! Whole texts -/

theorem exists_items {item other : Scanner α}
    (reads : ∀ {rest after v}, item rest = .ok (v, after) → ∃ w, other rest = .ok (w, after))
    {count : Nat} {first : Bool} {rest after : List Char} {values : List α}
    (read : items item count first rest = .ok (values, after)) :
    ∃ others, items other count first rest = .ok (others, after) := by
  induction count generalizing first rest values with
  | zero => cases read
  | succ count ih =>
    rw [items] at read ⊢
    obtain ⟨⟨goes, left⟩, next, read⟩ := Except.bind_eq_ok.1 read
    rw [next, Except.ok_bind]
    cases goes with
    | false =>
      cases read
      exact ⟨[], rfl⟩
    | true =>
      obtain ⟨⟨v, left⟩, here, read⟩ := Except.bind_eq_ok.1 read
      obtain ⟨⟨values, closing⟩, there, same⟩ := Except.bind_eq_ok.1 read
      cases same
      obtain ⟨w, here⟩ := reads here
      obtain ⟨others, there⟩ := ih there
      exact ⟨w :: others, by simp [here, there]⟩

theorem exists_valueWith {enter other : String → Json → List (String × Json) → List (String × Json)}
    {levels : Nat} {rest after : List Char} {v : Json}
    (read : valueWith enter levels rest = .ok (v, after)) :
    ∃ w, valueWith other levels rest = .ok (w, after) := by
  -- By induction on the levels that are left. Which entries are kept does not decide how far they
  -- reach.
  induction levels using Nat.strongRecOn generalizing rest v after with
  | ind levels ih =>
    cases holds_of_valueWith read with
    | @list levels _ inner closing _ _ opening inside closed =>
      obtain ⟨others, inside⟩ : ∃ others,
          allItems (valueWith other levels) inner = .ok (others, closing) :=
        exists_items (ih _ (Nat.lt_succ_self _)) inside
      refine ⟨.array others, ?_⟩
      rw [valueWith, opening]
      simp [inList_eq_ok.2 ⟨closing, inside, closed⟩]
    | @object levels _ inner closing _ _ opening inside closed =>
      have step : ∀ (held second : List (String × Json)) (key : String) (rest : List Char)
          (next : List (String × Json)) (after : List Char), True →
          entryInto enter (valueWith enter levels) held key rest = .ok (next, after) →
          ∃ last, entryInto other (valueWith other levels) second key rest = .ok (last, after) ∧
            True := by
        intro held second key rest next after _ entry
        obtain ⟨⟨⟨⟩, behind⟩, past, entry⟩ := Except.bind_eq_ok.1 entry
        obtain ⟨⟨v, left⟩, here, same⟩ := Except.bind_eq_ok.1 entry
        cases same
        obtain ⟨w, there⟩ := ih _ (Nat.lt_succ_self _) here
        exact ⟨other key w second, by simp [entryInto, past, there], trivial⟩
      obtain ⟨others, inside, -⟩ : ∃ others,
          allMembers (entryInto other (valueWith other levels)) [] inner = .ok (others, closing) ∧
            True := members_simulates step trivial inside
      refine ⟨.object others, ?_⟩
      rw [valueWith, opening]
      simp [inObject_eq_ok.2 ⟨closing, inside, closed⟩]
    | bare starts notList notObject scanned =>
      exact ⟨v, by rw [valueWith_bare starts notList notObject, scanned]⟩

/-- A document is read from a text as it is written exactly when one is read at all. -/
theorem exists_written_iff (text : String) :
    (∃ w, readWith (written nestingLimit) text = .ok w) ↔ ∃ v, read text = .ok v := by
  simp only [read, readWith_eq_ok, value, written]
  constructor
  · rintro ⟨w, rest, scanned, blank⟩
    obtain ⟨v, scanned⟩ := exists_valueWith scanned
    exact ⟨v, rest, scanned, blank⟩
  · rintro ⟨v, rest, scanned, blank⟩
    obtain ⟨w, scanned⟩ := exists_valueWith scanned
    exact ⟨w, rest, scanned, blank⟩

theorem toOption_readWith {scanner : Scanner α} {view : Json → Option α}
    (follows : Follows nestingLimit scanner view) {text : String} {v : Json}
    (holds : readWith (written nestingLimit) text = .ok v) :
    (readWith scanner text).toOption = view v := by
  obtain ⟨rest, scanned, blank⟩ := readWith_eq_ok.1 holds
  have shown := follows scanned
  cases view_ : view v with
  | none =>
    rw [view_] at shown
    obtain ⟨fault, failed⟩ := Except.toOption_eq_none.1 shown
    simp [readWith, finish, failed]
  | some value =>
    rw [view_] at shown
    exact Except.toOption_eq_some.2
      (readWith_eq_ok.2 ⟨rest, Except.toOption_eq_some.1 shown, blank⟩)

theorem readWith_written {v : Json} (exact_ : v.Exact) (shallow : v.depth ≤ nestingLimit) :
    readWith (written nestingLimit) v.text = .ok v :=
  readWith_of_readsBack (readsBack_written exact_ shallow)

end Json

end SignalExchange
