import SignalExchange.Proofs.Json.Typed

/-! Records, read from the texts of documents.

A record is written as an object, where each field stands once at most and in any place, or as the
list of its fields in their order.
-/

set_option autoImplicit false

namespace SignalExchange

namespace Json

variable {α : Type}

/-! Values that may be left out -/

/-- Nothing where the document is `null`. -/
def optional? (view : Json → Option α) : Json → Option (Option α)
  | .null => some none
  | v => (view v).map some

theorem null_of_bare {inner after : List Char} {v : Json}
    (read : bare ('n' :: inner) = .ok (v, after)) :
    v = .null ∧ word ['u', 'l', 'l'] inner = .ok ((), after) := by
  obtain ⟨⟨⟨⟩, left⟩, passed, same⟩ := Except.bind_eq_ok.1 read
  cases same
  exact ⟨rfl, passed⟩

theorem ne_null_of_bare {c : Char} {inner after : List Char} {v : Json} (other : c ≠ 'n')
    (read : bare (c :: inner) = .ok (v, after)) : v ≠ .null := by
  unfold bare at read
  split at read
  case h_1 => cases read
  case h_2 starts => exact absurd (List.cons.inj starts).1 other
  case h_5 =>
    obtain ⟨⟨number, rest⟩, -, same⟩ := Except.bind_eq_ok.1 read
    cases same
    cases number <;> rintro ⟨⟩
  case h_7 =>
    split at read
    · obtain ⟨⟨number, rest⟩, -, same⟩ := Except.bind_eq_ok.1 read
      cases same
      cases number <;> rintro ⟨⟩
    · cases read
  all_goals
    obtain ⟨_, -, same⟩ := Except.bind_eq_ok.1 read
    cases same
    rintro ⟨⟩

theorem optional?_of_ne_null {view : Json → Option α} {v : Json} (other : v ≠ .null) :
    optional? view v = (view v).map some := by
  cases v with
  | null => exact absurd rfl other
  | _ => rfl

theorem follows_optionalValue {item : Scanner α} {view : Json → Option α} {levels : Nat}
    (follows : Follows levels item view) :
    Follows levels (optionalValue item) (optional? view) := by
  intro rest after v read
  -- What does not start like `null` is left to the scanner inside.
  have inside (other : v ≠ .null) (starts : ∀ inner, skipBlanks rest ≠ 'n' :: inner) :
      (optionalValue item rest).toOption =
        (optional? view v).map fun shown => (shown, after) := by
    have same := valueWith_skipBlanks putLast levels rest
    have shown := follows (same.trans read)
    unfold optionalValue
    split
    next inner null => exact absurd null (starts inner)
    next =>
      rw [Except.toOption_bind, shown, optional?_of_ne_null other]
      cases view v <;> rfl
  cases holds_of_valueWith read with
  | list opening => exact inside nofun (by simp [opening])
  | object opening => exact inside nofun (by simp [opening])
  | @bare _ _ inner _ c _ starts _ _ scanned =>
    by_cases null : c = 'n'
    · subst null
      obtain ⟨rfl, passed⟩ := null_of_bare scanned
      simp [optionalValue, starts, passed, optional?]
    · exact inside (ne_null_of_bare null scanned) (by simp [starts, null])

/-! Objects -/

section

variable {σ : Type} {member : σ → String → Scanner σ} {step : σ → String × Json → Option σ}
  {levels : Nat}

/-- A member reads what the step makes of its entry. -/
def FollowsMember (levels : Nat) (member : σ → String → Scanner σ)
    (step : σ → String × Json → Option σ) : Prop :=
  ∀ ⦃state : σ⦄ ⦃key : String⦄ ⦃rest behind after : List Char⦄ ⦃v : Json⦄,
    colon rest = .ok ((), behind) → written levels behind = .ok (v, after) →
    (member state key rest).toOption = (step state (key, v)).map fun next => (next, after)

theorem FollowsMember.members (follows : FollowsMember levels member step) {count : Nat}
    {first : Bool} {rest after : List Char} {held entries : List (String × Json)}
    (read : members (entryInto putLast (written levels)) count
      first held rest = .ok (entries, after)) :
    ∃ more, entries = held ++ more ∧ ∀ state,
      (members member count first state rest).toOption =
        (more.foldlM step state).map fun final => (final, after) := by
  induction count generalizing first rest held with
  | zero => cases read
  | succ count ih =>
    rw [Json.members] at read
    obtain ⟨⟨goes, left⟩, next, read⟩ := Except.bind_eq_ok.1 read
    cases goes with
    | false =>
      cases read
      refine ⟨[], by simp, fun state => ?_⟩
      rw [Json.members, next]
      rfl
    | true =>
      obtain ⟨⟨key, named⟩, keyRead, read⟩ := Except.bind_eq_ok.1 read
      obtain ⟨⟨_, left⟩, here, there⟩ := Except.bind_eq_ok.1 read
      obtain ⟨⟨⟨⟩, behind⟩, past, here⟩ := Except.bind_eq_ok.1 here
      obtain ⟨⟨v, left⟩, value, same⟩ := Except.bind_eq_ok.1 here
      cases same
      -- The key and its value are one entry more, on which the member and the step agree.
      obtain ⟨more, rfl, shown⟩ := ih there
      refine ⟨(key, v) :: more, by simp [putLast], fun state => ?_⟩
      rw [Json.members, next, Except.ok_bind]
      simp only [keyRead, Except.ok_bind, Except.toOption_bind, follows past value,
        List.foldlM_cons]
      cases step state (key, v) with
      | none => rfl
      | some next => exact shown next

theorem FollowsMember.allMembers (follows : FollowsMember levels member step)
    {rest after : List Char} {entries : List (String × Json)}
    (read : allMembers (entryInto putLast (written levels)) []
      rest = .ok (entries, after)) (state : σ) : (allMembers member state rest).toOption =
        (entries.foldlM step state).map fun final => (final, after) := by
  obtain ⟨more, rfl, shown⟩ := follows.members read
  exact shown state

end

/-! Fields -/

/-- What the entry under a key shows, if there is one; no key stands twice. -/
def field? (key : String) (view : Json → Option α) (entries : List (String × Json)) :
    Option (Option α) :=
  match entries.filter (·.1 = key) with
  | [] => some none
  | [(_, v)] => (view v).map some
  | _ => none

/-- What is held of a field after one more entry. -/
def enter? (key : String) (view : Json → Option α) (held : Option α) (entry : String × Json) :
    Option (Option α) :=
  if entry.1 = key then
    match held with
    | none => (view entry.2).map some
    | some _ => none
  else some held

theorem enter?_of_ne {key : String} {view : Json → Option α} {entry : String × Json}
    (other : entry.1 ≠ key) (held : Option α) : enter? key view held entry = some held :=
  if_neg other

theorem foldlM_enter?_some (key : String) (view : Json → Option α) (value : α)
    (entries : List (String × Json)) : entries.foldlM (enter? key view) (some value) =
      match entries.filter (·.1 = key) with
      | [] => some (some value)
      | _ => none := by
  induction entries with
  | nil => rfl
  | cons entry more ih =>
    obtain ⟨name, v⟩ := entry
    by_cases same : name = key
    · simp [enter?, same]
    · simp [enter?, same, ih]

theorem foldlM_enter? (key : String) (view : Json → Option α) (entries : List (String × Json)) :
    entries.foldlM (enter? key view) none = field? key view entries := by
  induction entries with
  | nil => rfl
  | cons entry more ih =>
    obtain ⟨name, v⟩ := entry
    by_cases same : name = key
    · cases shown : view v with
      | none =>
        simp only [List.foldlM_cons, enter?, same, if_true, shown, field?, List.filter_cons]
        cases more.filter (·.1 = key) <;> simp [shown]
      | some value =>
        simp only [List.foldlM_cons, enter?, same, if_true, shown, field?, List.filter_cons]
        simp only [Option.map_some, Option.bind_eq_bind, Option.bind_some, foldlM_enter?_some]
        cases more.filter (·.1 = key) <;> simp [shown]
    · simpa [enter?, same, field?] using ih

section

variable {item : Scanner α} {view : Json → Option α} {levels : Nat}
  {rest behind after : List Char} {v : Json}

theorem toOption_put {σ : Type} (key : String) (put : Option α → σ)
    (follows : Follows levels item view) (held : Option α) (past : colon rest = .ok ((), behind))
    (read : written levels behind = .ok (v, after)) :
    (do
      let (found, rest) ← once key held item rest
      return (put (some found), rest) : Except Fault (σ × List Char)).toOption =
      (enter? key view held (key, v)).map fun next => (put next, after) := by
  cases held with
  | some other => simp [once, Fault.waiting, enter?]
  | none =>
    simp only [once, member, past, Except.ok_bind, Except.toOption_bind, follows read, enter?,
      if_true]
    cases view v <;> rfl

theorem toOption_passed (past : colon rest = .ok ((), behind))
    (read : written levels behind = .ok (v, after)) :
    (member skipValue rest).toOption = some ((), after) := by
  simp only [member, past, Except.ok_bind, skipValue_of_valueWith read, Except.toOption_ok]

end

/-! Records -/

/-- What a record shows, written as an object or as a list. -/
def record? (members : List (String × Json) → Option α) (elements : List Json → Option α) :
    Json → Option α
  | .object entries => members entries
  | .array items => elements items
  | _ => none

/-- A scanner of records follows a view of records when both of its bodies do. -/
theorem follows_recordOf {expected : String} {members elements : Nat → Scanner α}
    {view : List (String × Json) → Option α} {viewList : List Json → Option α}
    (inObject_ : ∀ {levels : Nat} {inner closing : List Char} {entries : List (String × Json)},
      allMembers (entryInto putLast (written levels)) []
        inner = .ok (entries, closing) →
      (members levels inner).toOption = (view entries).map fun shown => (shown, closing))
    (inList_ : ∀ {levels : Nat} {inner closing after : List Char} {values : List Json},
      allItems (written levels) inner = .ok (values, closing) →
      closeList closing = .ok ((), after) → (inList (elements levels) inner).toOption =
        (viewList values).map fun shown => (shown, after)) (levels : Nat) :
    Follows levels (recordOf expected members elements levels) (record? view viewList) := by
  intro rest after v read
  have blanks := skipBlanks_skipBlanks rest
  unfold recordOf
  -- The first character decides between the bodies, for the scanner as for the reader of documents.
  cases holds_of_valueWith read with
  | list opening items closed =>
    rw [opening]
    change (listOf expected elements _ ('[' :: _)).toOption = _
    rw [listOf_bracket]
    exact inList_ items closed
  | object opening items closed =>
    rw [opening]
    change (objectOf expected members _ ('\x7b' :: _)).toOption = _
    rw [objectOf_brace, inObject, toOption_enclosed, inObject_ items, record?]
    cases view _ <;> simp [closed]
  | bare starts notList notObject scanned =>
    -- The document is neither a list nor an object, so it shows no record.
    obtain ⟨noItems, noEntries⟩ := kind_of_bare scanned
    have none : record? view viewList v = none := by
      cases v with
      | array items => exact absurd rfl (noItems items)
      | object entries => exact absurd rfl (noEntries entries)
      | _ => rfl
    rw [none, starts]
    rw [starts] at blanks
    split
    next same => exact absurd (List.cons.inj same).1 notList
    next =>
      unfold objectOf
      rw [blanks]
      split
      next same => exact absurd (List.cons.inj same).1 notObject
      next same => exact absurd (List.cons.inj same).1 notObject
      next => exact toOption_refuse _

end Json

end SignalExchange
