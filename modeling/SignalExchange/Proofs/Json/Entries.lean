import SignalExchange.Json.Reader
import SignalExchange.Proofs.Ascending
import SignalExchange.Proofs.Except

/-! The entries of an object that was read ascend by key. -/

set_option autoImplicit false

namespace SignalExchange

namespace Json

theorem members_preserves {σ : Type} {member : σ → String → Scanner σ} {P : σ → Prop}
    (keeps : ∀ state key rest next after, P state →
      member state key rest = .ok (next, after) → P next)
    {fuel : Nat} {first : Bool} {state final : σ} {rest after : List Char} (holds : P state)
    (read : members member fuel first state rest = .ok (final, after)) : P final := by
  induction fuel generalizing first state rest with
  | zero => cases read
  | succ fuel ih =>
    rw [members] at read
    obtain ⟨⟨more, rest⟩, -, read⟩ := Except.bind_eq_ok.1 read
    cases more with
    | false =>
      cases read
      exact holds
    | true =>
      obtain ⟨⟨key, rest⟩, -, read⟩ := Except.bind_eq_ok.1 read
      obtain ⟨⟨next, rest⟩, step, read⟩ := Except.bind_eq_ok.1 read
      exact ih (keeps state key _ next rest holds step) read

theorem members_simulates {σ τ : Type} {member : σ → String → Scanner σ}
    {other : τ → String → Scanner τ} {related : σ → τ → Prop}
    (step : ∀ state second key rest next after, related state second →
      member state key rest = .ok (next, after) →
      ∃ last, other second key rest = .ok (last, after) ∧ related next last)
    {fuel : Nat} {first : Bool} {state final : σ} {second : τ} {rest after : List Char}
    (holds : related state second)
    (read : members member fuel first state rest = .ok (final, after)) :
    ∃ last, members other fuel first second rest = .ok (last, after) ∧ related final last := by
  induction fuel generalizing first state second rest with
  | zero => cases read
  | succ fuel ih =>
    rw [members] at read
    obtain ⟨⟨more, rest⟩, next, read⟩ := Except.bind_eq_ok.1 read
    rw [members, next, Except.ok_bind]
    cases more with
    | false =>
      cases read
      exact ⟨second, rfl, holds⟩
    | true =>
      obtain ⟨⟨key, rest⟩, named, read⟩ := Except.bind_eq_ok.1 read
      obtain ⟨⟨state, rest⟩, here, read⟩ := Except.bind_eq_ok.1 read
      obtain ⟨middle, there, holds⟩ := step _ _ _ _ _ _ holds here
      obtain ⟨last, behind, holds⟩ := ih holds read
      exact ⟨last, by simp [named, there, behind], holds⟩

section

variable {α : Type} {body : Scanner α} {value : α} {rest after : List Char}

theorem enclosed_eq_ok {close : Scanner Unit} {pass : List Char → List Char} :
    enclosed body close pass rest = .ok (value, after) ↔
      ∃ closing, body rest = .ok (value, closing) ∧ close closing = .ok ((), after) := by
  rw [enclosed]
  rcases body rest with fault | ⟨inner, closing⟩
  · simp
  · cases closed : close closing <;> simp [closed, Except.map, Prod.ext_iff]

theorem inList_eq_ok : inList body rest = .ok (value, after) ↔
    ∃ closing, body rest = .ok (value, closing) ∧ closeList closing = .ok ((), after) :=
  enclosed_eq_ok

theorem inObject_eq_ok : inObject body rest = .ok (value, after) ↔
    ∃ closing, body rest = .ok (value, closing) ∧ closeObject closing = .ok ((), after) :=
  enclosed_eq_ok

end

/-- A value that starts with no bracket is neither a list nor an object. -/
theorem kind_of_bare {rest after : List Char} {v : Json} (read : bare rest = .ok (v, after)) :
    (∀ items, v ≠ .array items) ∧ ∀ entries, v ≠ .object entries := by
  unfold bare at read
  split at read
  case h_1 => cases read
  case h_5 =>
    obtain ⟨⟨number, rest⟩, -, same⟩ := Except.bind_eq_ok.1 read
    cases same
    cases number <;> exact ⟨nofun, nofun⟩
  case h_7 =>
    split at read
    · obtain ⟨⟨number, rest⟩, -, same⟩ := Except.bind_eq_ok.1 read
      cases same
      cases number <;> exact ⟨nofun, nofun⟩
    · cases read
  all_goals
    obtain ⟨_, -, same⟩ := Except.bind_eq_ok.1 read
    cases same
    exact ⟨nofun, nofun⟩

/-- What stands at the start of a text, and what follows it. -/
inductive Holds (enter : String → Json → List (String × Json) → List (String × Json)) :
    Nat → List Char → Json → List Char → Prop where
  | list {levels : Nat} {rest inner closing after : List Char} {values : List Json}
      (opening : skipBlanks rest = '[' :: inner)
      (inside : allItems (valueWith enter levels) inner = .ok (values, closing))
      (closed : closeList closing = .ok ((), after)) :
      Holds enter (levels + 1) rest (.array values) after
  | object {levels : Nat} {rest inner closing after : List Char} {entries : List (String × Json)}
      (opening : skipBlanks rest = '\x7b' :: inner)
      (inside : allMembers (entryInto enter (valueWith enter levels)) [] inner =
        .ok (entries, closing))
      (closed : closeObject closing = .ok ((), after)) :
      Holds enter (levels + 1) rest (.object entries) after
  | bare {levels : Nat} {rest inner after : List Char} {c : Char} {v : Json}
      (starts : skipBlanks rest = c :: inner) (notList : c ≠ '[') (notObject : c ≠ '\x7b')
      (scanned : Json.bare (c :: inner) = .ok (v, after)) : Holds enter levels rest v after

theorem holds_of_valueWith {enter : String → Json → List (String × Json) → List (String × Json)}
    {levels : Nat} {rest after : List Char} {v : Json}
    (read : valueWith enter levels rest = .ok (v, after)) : Holds enter levels rest v after := by
  rw [valueWith] at read
  split at read
  next inner opening =>
    split at read
    · cases read
    · obtain ⟨⟨values, left⟩, inside, same⟩ := Except.bind_eq_ok.1 read
      cases same
      obtain ⟨closing, inside, closed⟩ := inList_eq_ok.1 inside
      exact .list opening inside closed
  next inner opening =>
    split at read
    · cases read
    · obtain ⟨⟨entries, left⟩, inside, same⟩ := Except.bind_eq_ok.1 read
      cases same
      obtain ⟨closing, inside, closed⟩ := inObject_eq_ok.1 inside
      exact .object opening inside closed
  next notList notObject =>
    cases starts : skipBlanks rest with
    | nil =>
      rw [starts] at read
      cases read
    | cons c inner =>
      refine .bare starts ?_ ?_ (starts ▸ read)
      · rintro rfl
        exact notList inner starts
      · rintro rfl
        exact notObject inner starts

theorem ascending_of_value {levels : Nat} {rest after : List Char}
    {entries : List (String × Json)}
    (read : value levels rest = .ok (.object entries, after)) : Ascending entries := by
  cases holds_of_valueWith read with
  | object _ inside _ =>
    refine members_preserves (fun held key rest next after ascending step => ?_)
      Ascending.nil inside
    obtain ⟨_, -, step⟩ := Except.bind_eq_ok.1 step
    obtain ⟨_, -, same⟩ := Except.bind_eq_ok.1 step
    cases same
    exact Ascending.insert_ascending ascending key _
  | bare _ _ _ scanned => exact absurd rfl ((kind_of_bare scanned).2 entries)

theorem readWith_eq_ok {α : Type} {scanner : Scanner α} {text : String} {value : α} :
    readWith scanner text = .ok value ↔
      ∃ rest, scanner text.toList = .ok (value, rest) ∧ skipBlanks rest = [] := by
  rw [readWith, Except.mapError_eq_ok, finish]
  rcases scanner text.toList with fault | ⟨found, rest⟩
  · simp
  · cases left : skipBlanks rest <;> simp [left, Fault.onNext]

theorem scanned_of_readWith {α : Type} {scanner : Scanner α} {text : String} {value : α}
    (done : readWith scanner text = .ok value) :
    ∃ rest, scanner text.toList = .ok (value, rest) := by
  obtain ⟨rest, scanned, -⟩ := readWith_eq_ok.1 done
  exact ⟨rest, scanned⟩

theorem value_of_read {text : String} {document : Json} (done : read text = .ok document) :
    ∃ rest, value nestingLimit text.toList = .ok (document, rest) := scanned_of_readWith done

theorem ascending_of_read {text : String} {entries : List (String × Json)}
    (done : read text = .ok (.object entries)) : Ascending entries := by
  obtain ⟨rest, scanned⟩ := value_of_read done
  exact ascending_of_value scanned

end Json

end SignalExchange
