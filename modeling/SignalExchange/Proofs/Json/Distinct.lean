import SignalExchange.Proofs.Json.RoundTrip
import SignalExchange.Proofs.Number.Layout

/-! Documents are told apart by their texts.

The texts of two documents may be followed by anything that ends a number. If the whole texts are
the same, so are the documents and what follows them. Unlike reading back, this needs no limit on
the depth, and it holds of doubles too.
-/

set_option autoImplicit false

namespace SignalExchange

namespace Json

open DecimalLayout (isPart isPart_of_isDigit)

mutual

/-- The doubles in the document are in normal form, in which every number stands once. -/
def Normal : Json → Prop
  | .double x => x.Normal
  | .array items => NormalItems items
  | .object entries => NormalEntries entries
  | _ => True

def NormalItems : List Json → Prop
  | [] => True
  | item :: rest => item.Normal ∧ NormalItems rest

def NormalEntries : List (String × Json) → Prop
  | [] => True
  | (_, value) :: rest => value.Normal ∧ NormalEntries rest

end

theorem normal_of_mem_items {items : List Json} (normal : NormalItems items) :
    ∀ item ∈ items, item.Normal := by
  induction items with
  | nil => simp
  | cons item rest ih => exact List.forall_mem_cons.2 ⟨normal.1, ih normal.2⟩

theorem normal_of_mem_entries {entries : List (String × Json)} (normal : NormalEntries entries) :
    ∀ entry ∈ entries, entry.2.Normal := by
  induction entries with
  | nil => simp
  | cons entry rest ih => exact List.forall_mem_cons.2 ⟨normal.1, ih normal.2⟩

/-- No number goes on with this text. -/
def Stops (rest : List Char) : Prop := ∀ c ∈ rest.head?, isPart c = false

theorem stops_nil : Stops [] := by simp [Stops]

theorem stops_cons {c : Char} (stops : isPart c = false) (rest : List Char) :
    Stops (c :: rest) := by simpa [Stops] using stops

/-- Among the values of the kind, only this one has its text, whatever follows. -/
def ToldApart {α : Type} (kind : α → Prop) (show_ : α → List Char) (value : α) : Prop :=
  ∀ other rest rest', kind other → Stops rest → Stops rest' →
    show_ value ++ rest = show_ other ++ rest' → value = other ∧ rest = rest'

/-! Numbers -/

theorem eq_of_parts {text text' rest rest' : List Char} (parts : ∀ c ∈ text, isPart c = true)
    (parts' : ∀ c ∈ text', isPart c = true) (stops : Stops rest) (stops' : Stops rest')
    (same : text ++ rest = text' ++ rest') : text = text' ∧ rest = rest' := by
  have none : ∀ {rest : List Char}, Stops rest → rest.takeWhile isPart = [] := by
    intro rest stops
    cases rest with
    | nil => rfl
    | cons c more => simp [stops c rfl]
  -- The number ends at the first character that is no part of one, in both texts.
  have run := congrArg (List.takeWhile isPart) same
  rw [List.takeWhile_append_of_pos parts, List.takeWhile_append_of_pos parts', none stops,
    none stops', List.append_nil, List.append_nil] at run
  subst run
  exact ⟨rfl, List.append_cancel_left same⟩

theorem eq_of_toDigits_eq {n m : ℕ} (same : Nat.toDigits 10 n = Nat.toDigits 10 m) : n = m := by
  rw [← onto_toDigits n, same, onto_toDigits]

theorem mem_integerText {n : Int} : ∀ c ∈ Integer.text n, c = '-' ∨ isDigit c = true := by
  unfold Integer.text
  split
  · exact List.forall_mem_cons.2 ⟨.inl rfl, fun c member => .inr (isDigit_of_mem_toDigits c member)⟩
  · exact fun c member => .inr (isDigit_of_mem_toDigits c member)

theorem minus_mem_integerText {n : Int} : '-' ∈ Integer.text n ↔ n < 0 := by
  unfold Integer.text
  split
  next negative => exact iff_of_true List.mem_cons_self negative
  next notNegative =>
    refine iff_of_false (fun member => ?_) notNegative
    exact absurd (isDigit_of_mem_toDigits '-' member) (by decide)

theorem eq_of_integerText_eq {n m : Int} (same : Integer.text n = Integer.text m) : n = m := by
  -- The sign first, then the digits without it.
  have signs : n < 0 ↔ m < 0 := by rw [← minus_mem_integerText, same, minus_mem_integerText]
  unfold Integer.text at same
  split at same
  next negative =>
    rw [if_pos (signs.1 negative)] at same
    have digits := eq_of_toDigits_eq (List.cons.inj same).2
    omega
  next notNegative =>
    rw [if_neg fun negative => notNegative (signs.2 negative)] at same
    have digits := eq_of_toDigits_eq same
    omega

theorem integerText_parts (n : Int) : ∀ c ∈ Integer.text n, isPart c = true := by
  intro c member
  rcases mem_integerText c member with rfl | digit
  · decide
  · exact isPart_of_isDigit digit

theorem doubleText_parts {x : Binary64} (normal : x.Normal) :
    ∀ c ∈ doubleLayout.write x, isPart c = true := by
  rw [Binary64.write_eq]
  refine List.forall_mem_append.2 ⟨?_, (Binary64.write_abs_fractional normal).parts⟩
  split
  · exact List.forall_mem_singleton.2 rfl
  · exact fun c member => nomatch member

theorem integerText_ne_doubleText {n : Int} {x : Binary64} (normal : x.Normal) :
    Integer.text n ≠ doubleLayout.write x := by
  intro same
  rw [Binary64.write_eq] at same
  rcases (Binary64.write_abs_fractional normal).mark with point | mark
  · have member : '.' ∈ Integer.text n := same ▸ List.mem_append_right _ point
    exact absurd (mem_integerText '.' member) (by decide)
  · have member : 'e' ∈ Integer.text n := same ▸ List.mem_append_right _ mark
    exact absurd (mem_integerText 'e' member) (by decide)

/-! The first character -/

/-- One character for all that may start a value of a kind. -/
def leadOf (c : Char) : Char :=
  if c = '-' ∨ isDigit c = true then '0' else if c = 'f' then 't' else c

def lead : Json → Char
  | .null => 'n'
  | .boolean _ => 't'
  | .integer _ | .double _ => '0'
  | .string _ => '"'
  | .array _ => '['
  | .object _ => '\x7b'

theorem print_lead {v : Json} (normal : v.Normal) :
    ∃ c rest, v.print = c :: rest ∧ leadOf c = v.lead := by
  cases v with
  | null => exact ⟨'n', _, rfl, rfl⟩
  | boolean value => cases value <;> exact ⟨_, _, rfl, rfl⟩
  | integer n =>
    obtain ⟨c, rest, text, start⟩ := integerText_head n
    exact ⟨c, rest, text, if_pos start⟩
  | double x =>
    obtain ⟨c, rest, text, digit⟩ := (Binary64.write_abs_fractional normal).digit
    rw [print, Binary64.write_eq, text]
    cases x.negative with
    | true => exact ⟨'-', _, rfl, rfl⟩
    | false => exact ⟨c, rest, rfl, if_pos (.inr digit)⟩
  | string s => exact ⟨'"', _, rfl, rfl⟩
  | array items => exact ⟨'[', _, rfl, rfl⟩
  | object entries => exact ⟨'\x7b', _, rfl, rfl⟩

theorem lead_eq {v w : Json} (normal : v.Normal) (normal' : w.Normal) {rest rest' : List Char}
    (same : v.print ++ rest = w.print ++ rest') : v.lead = w.lead := by
  obtain ⟨c, more, text, kind⟩ := print_lead normal
  obtain ⟨d, more', text', kind'⟩ := print_lead normal'
  rw [text, text'] at same
  rw [← kind, ← kind', (List.cons.inj same).1]

/-! Lists -/

section

variable {α : Type} {kind : α → Prop} {show_ : α → List Char} {close : Char}
  (closes : isPart close = false) (notComma : close ≠ ',')

include closes

theorem stops_following (values : List α) (rest : List Char) :
    Stops (following show_ values ++ close :: rest) := by
  cases values with
  | nil => exact stops_cons closes rest
  | cons value more => exact stops_cons (by decide) _

include notComma

theorem following_inj {values others : List α} {rest rest' : List Char}
    (apart : ∀ value ∈ values, ToldApart kind show_ value) (kinds : ∀ other ∈ others, kind other)
    (same : following show_ values ++ close :: rest = following show_ others ++ close :: rest') :
    values = others ∧ rest = rest' := by
  induction values generalizing others with
  | nil =>
    cases others with
    | nil => exact ⟨rfl, (List.cons.inj same).2⟩
    | cons other more' => exact absurd (List.cons.inj same).1 notComma
  | cons value more ih =>
    cases others with
    | nil => exact absurd (List.cons.inj same).1.symm notComma
    | cons other more' =>
      rw [List.forall_mem_cons] at apart kinds
      rw [following_cons, following_cons] at same
      obtain ⟨rfl, behind⟩ := apart.1 other _ _ kinds.1 (stops_following closes more rest)
        (stops_following closes more' rest') (List.cons.inj same).2
      obtain ⟨rfl, after⟩ := ih apart.2 kinds.2 behind
      exact ⟨rfl, after⟩

theorem separated_inj (starts : ∀ value, kind value → ∃ c rest, show_ value = c :: rest ∧ c ≠ close)
    {values others : List α} {rest rest' : List Char}
    (apart : ∀ value ∈ values, ToldApart kind show_ value) (own : ∀ value ∈ values, kind value)
    (kinds : ∀ other ∈ others, kind other)
    (same : separated show_ values ++ close :: rest = separated show_ others ++ close :: rest') :
    values = others ∧ rest = rest' := by
  -- Where one list is empty, its bracket would have to be the start of a value of the other.
  cases values with
  | nil =>
    cases others with
    | nil => exact ⟨rfl, (List.cons.inj same).2⟩
    | cons other more =>
      obtain ⟨c, text, shown, notClose⟩ := starts other (kinds other List.mem_cons_self)
      rw [separated, separated, shown] at same
      exact absurd (List.cons.inj same).1.symm notClose
  | cons value more =>
    cases others with
    | nil =>
      obtain ⟨c, text, shown, notClose⟩ := starts value (own value List.mem_cons_self)
      rw [separated, separated, shown] at same
      exact absurd (List.cons.inj same).1 notClose
    | cons other more' =>
      rw [List.forall_mem_cons] at apart kinds
      rw [separated, separated, List.append_assoc, List.append_assoc] at same
      obtain ⟨rfl, behind⟩ := apart.1 other _ _ kinds.1 (stops_following closes more rest)
        (stops_following closes more' rest') same
      obtain ⟨rfl, after⟩ := following_inj closes notComma apart.2 kinds.2 behind
      exact ⟨rfl, after⟩

end

/-! Documents -/

theorem printString_inj {text text' : String} {rest rest' : List Char}
    (same : printString text ++ rest = printString text' ++ rest') :
    text = text' ∧ rest = rest' := by
  have read := readString_print text rest
  have read' := readString_print text' rest'
  simp only [printString, List.cons_append, List.append_assoc, List.nil_append, List.cons.injEq,
    true_and] at same
  rw [same, read'] at read
  exact Prod.mk.inj (Except.ok.inj read.symm)

theorem lead_ne_close (v : Json) : v.lead ≠ ']' := by
  cases v <;> simp [lead]

theorem toldApart_number {v : Json} (normal : v.Normal) (number : v.lead = '0') :
    ToldApart Normal print v := by
  intro other rest rest' normal' stops stops' same
  have number' := (lead_eq normal normal' same).symm.trans number
  cases v with
  | integer n =>
    cases other with
    | integer m =>
      obtain ⟨text, behind⟩ :=
        eq_of_parts (integerText_parts n) (integerText_parts m) stops stops' same
      exact ⟨by rw [eq_of_integerText_eq text], behind⟩
    | double y =>
      have text := eq_of_parts (integerText_parts n) (doubleText_parts normal') stops stops' same
      exact absurd text.1 (integerText_ne_doubleText normal')
    | _ => cases number'
  | double x =>
    cases other with
    | integer m =>
      have text := eq_of_parts (doubleText_parts normal) (integerText_parts m) stops stops' same
      exact absurd text.1.symm (integerText_ne_doubleText normal)
    | double y =>
      obtain ⟨text, behind⟩ :=
        eq_of_parts (doubleText_parts normal) (doubleText_parts normal') stops stops' same
      exact ⟨by rw [Binary64.eq_of_write_eq normal normal' text], behind⟩
    | _ => cases number'
  | _ => cases number

theorem toldApart_entry {entry : String × Json}
    (apart : ToldApart Normal print entry.2) :
    ToldApart (fun entry : String × Json => entry.2.Normal) (printEntry print) entry := by
  intro other rest rest' normal stops stops' same
  simp only [printEntry, List.append_assoc, List.cons_append] at same
  obtain ⟨key, behind⟩ := printString_inj same
  obtain ⟨value, after⟩ := apart other.2 rest rest' normal stops stops' (List.cons.inj behind).2
  exact ⟨Prod.ext key value, after⟩

theorem toldApart_null : ToldApart Normal print .null := by
  intro other rest rest' normal' _ _ same
  have kind := @lead_eq .null other trivial normal' _ _ same
  cases other with
  | null => exact ⟨rfl, List.append_cancel_left same⟩
  | _ => cases kind

theorem toldApart_boolean (value : Bool) : ToldApart Normal print (.boolean value) := by
  intro other rest rest' normal' _ _ same
  have kind := @lead_eq (.boolean value) other trivial normal' _ _ same
  cases other with
  | boolean value' =>
    cases value <;> cases value'
    · exact ⟨rfl, List.append_cancel_left same⟩
    · cases (List.cons.inj same).1
    · cases (List.cons.inj same).1
    · exact ⟨rfl, List.append_cancel_left same⟩
  | _ => cases kind

theorem toldApart_string (text : String) : ToldApart Normal print (.string text) := by
  intro other rest rest' normal' _ _ same
  have kind := @lead_eq (.string text) other trivial normal' _ _ same
  cases other with
  | string text' =>
    obtain ⟨rfl, behind⟩ := printString_inj same
    exact ⟨rfl, behind⟩
  | _ => cases kind

theorem toldApart_array {items : List Json} (normal : NormalItems items)
    (apart : ∀ item ∈ items, ToldApart Normal print item) :
    ToldApart Normal print (.array items) := by
  intro other rest rest' normal' _ _ same
  have kind := @lead_eq (.array items) other normal normal' _ _ same
  have starts : ∀ v : Json, v.Normal → ∃ c more, v.print = c :: more ∧ c ≠ ']' := by
    intro v normal
    obtain ⟨c, more, text, kind⟩ := print_lead normal
    refine ⟨c, more, text, ?_⟩
    rintro rfl
    exact lead_ne_close v kind.symm
  cases other with
  | array items' =>
    rw [print, print, printItems_eq, printItems_eq, List.cons_append, List.cons_append,
      List.append_assoc, List.append_assoc] at same
    obtain ⟨rfl, behind⟩ := separated_inj (by decide) (by decide) starts apart
      (normal_of_mem_items normal) (normal_of_mem_items normal') (List.cons.inj same).2
    exact ⟨rfl, behind⟩
  | _ => cases kind

theorem printEntries_inj {entries entries' : List (String × Json)} (normal : NormalEntries entries)
    (normal' : NormalEntries entries') (apart : ∀ entry ∈ entries, ToldApart Normal print entry.2)
    {rest rest' : List Char}
    (same : printEntries entries ++ '\x7d' :: rest = printEntries entries' ++ '\x7d' :: rest') :
    entries = entries' ∧ rest = rest' := by
  have starts : ∀ entry : String × Json, entry.2.Normal →
      ∃ c more, printEntry print entry = c :: more ∧ c ≠ '\x7d' := fun _ _ =>
    ⟨'"', _, rfl, by decide⟩
  rw [printEntries_eq, printEntries_eq] at same
  exact separated_inj (by decide) (by decide) starts
    (fun entry member => toldApart_entry (apart entry member)) (normal_of_mem_entries normal)
    (normal_of_mem_entries normal') same

theorem toldApart_object {entries : List (String × Json)} (normal : NormalEntries entries)
    (apart : ∀ entry ∈ entries, ToldApart Normal print entry.2) :
    ToldApart Normal print (.object entries) := by
  intro other rest rest' normal' _ _ same
  have kind := @lead_eq (.object entries) other normal normal' _ _ same
  cases other with
  | object entries' =>
    rw [print, print, List.cons_append, List.cons_append, List.append_assoc,
      List.append_assoc] at same
    obtain ⟨rfl, behind⟩ := printEntries_inj normal normal' apart (List.cons.inj same).2
    exact ⟨rfl, behind⟩
  | _ => cases kind

mutual

theorem toldApart_print : (v : Json) → v.Normal → ToldApart Normal print v
  | .null, _ => toldApart_null
  | .boolean value, _ => toldApart_boolean value
  | .integer _, normal => toldApart_number normal rfl
  | .double _, normal => toldApart_number normal rfl
  | .string text, _ => toldApart_string text
  | .array items, normal => toldApart_array normal (toldApart_items items normal)
  | .object entries, normal => toldApart_object normal (toldApart_entries entries normal)

theorem toldApart_items : (items : List Json) → NormalItems items →
    ∀ item ∈ items, ToldApart Normal print item
  | [], _ => by simp
  | item :: more, normal =>
    List.forall_mem_cons.2 ⟨toldApart_print item normal.1, toldApart_items more normal.2⟩

theorem toldApart_entries : (entries : List (String × Json)) → NormalEntries entries →
    ∀ entry ∈ entries, ToldApart Normal print entry.2
  | [], _ => by simp
  | (_, v) :: more, normal =>
    List.forall_mem_cons.2 ⟨toldApart_print v normal.1, toldApart_entries more normal.2⟩

end

/-- Two documents have the same text only if they are the same. -/
theorem eq_of_text_eq {v w : Json} (normal : v.Normal) (normal' : w.Normal)
    (same : v.text = w.text) : v = w := by
  have texts : v.print ++ [] = w.print ++ [] := by
    rw [List.append_nil, List.append_nil]
    exact String.ofList_injective same
  exact (toldApart_print v normal w [] [] normal' stops_nil stops_nil texts).1

end Json

end SignalExchange
