import SignalExchange.Proofs.Except
import SignalExchange.Web.Url

/-! Queries as forms.

A query holds pairs with ampersands between them, each a name and a value on both sides of an equals
sign. Pairs that are added to an address stand behind those that it has, and whoever reads the form
gets them back.
-/

set_option autoImplicit false

namespace SignalExchange

theorem hexValue_hexDigit : ∀ n < 16, hexValue (hexDigit n) = some n := by decide

theorem percentDecode_percentByte (byte : UInt8) (rest : List Char) :
    percentDecode (percentByte byte ++ rest) = byte :: percentDecode rest := by
  have small := byte.toNat_lt
  have high : hexValue (hexDigit (byte.toNat / 16)) = some (byte.toNat / 16) :=
    hexValue_hexDigit _ (by omega)
  have low : hexValue (hexDigit (byte.toNat % 16)) = some (byte.toNat % 16) :=
    hexValue_hexDigit _ (by omega)
  have whole : byte.toNat / 16 * 16 + byte.toNat % 16 = byte.toNat := by omega
  simp [percentByte, percentDecode, high, low, whole]

theorem percentDecode_of_ne {c : Char} (plain : c ≠ '%') (rest : List Char) :
    percentDecode (c :: rest) = utf8Bytes c ++ percentDecode rest := by
  rw [percentDecode]
  rintro _ _ _ rfl
  exact absurd rfl plain

namespace Url

/-! One part of a form -/

def bytes (text : String) : List UInt8 := text.toList.flatMap utf8Bytes

/-- A plus stands for a blank. -/
def blankForPlus (c : Char) : Char := if c = '+' then ' ' else c

/-- The bytes that a part of a form stands for. -/
def formDecode (part : List Char) : List UInt8 := percentDecode (part.map blankForPlus)

theorem keptInForms_hexDigit : ∀ n < 16, keptInForms (hexDigit n) = true := by decide

theorem mem_formEncode {text : String} {c : Char} (member : c ∈ formEncode text) :
    keptInForms c = true ∨ c = '+' ∨ c = '%' := by
  obtain ⟨written, -, coded⟩ := List.mem_flatMap.1 member
  split at coded
  next kept =>
    cases List.mem_singleton.1 coded
    exact .inl kept
  next =>
    split at coded
    next => exact .inr (.inl (List.mem_singleton.1 coded))
    next =>
      obtain ⟨byte, -, digit⟩ := List.mem_flatMap.1 coded
      have small := byte.toNat_lt
      simp only [percentByte, List.mem_cons, List.not_mem_nil, or_false] at digit
      rcases digit with rfl | rfl | rfl
      · exact .inr (.inr rfl)
      · exact .inl (keptInForms_hexDigit _ (by omega))
      · exact .inl (keptInForms_hexDigit _ (by omega))

theorem not_mem_formEncode {text : String} {c : Char} (mark : c = '&' ∨ c = '=') :
    c ∉ formEncode text := by
  intro member
  rcases mark with rfl | rfl
  · exact absurd (mem_formEncode member) (by decide)
  · exact absurd (mem_formEncode member) (by decide)

theorem formDecode_char (c : Char) (rest : List Char) :
    formDecode ((if keptInForms c then [c] else if c = ' ' then ['+'] else percentEncode c) ++ rest) =
      utf8Bytes c ++ formDecode rest := by
  split
  next kept =>
    have notPlus : c ≠ '+' := by
      rintro rfl
      exact absurd kept (by decide)
    have notPercent : c ≠ '%' := by
      rintro rfl
      exact absurd kept (by decide)
    simp [formDecode, blankForPlus, notPlus, percentDecode_of_ne notPercent]
  next =>
    split
    next blank =>
      subst blank
      simp [formDecode, blankForPlus, percentDecode_of_ne]
    next =>
      rw [percentEncode]
      -- Each byte is taken off the front, and none of its three characters is a plus.
      induction utf8Bytes c with
      | nil => rfl
      | cons byte more ih =>
        have small := byte.toNat_lt
        have plain : (percentByte byte).map blankForPlus = percentByte byte := by
          refine (List.map_congr_left fun d digit => ?_).trans (List.map_id _)
          have notPlus : d ≠ '+' := by
            simp only [percentByte, List.mem_cons, List.not_mem_nil, or_false] at digit
            have kept (n : Nat) (few : n < 16) : hexDigit n ≠ '+' := by
              intro same
              exact absurd (same ▸ keptInForms_hexDigit n few) (by decide)
            rcases digit with rfl | rfl | rfl
            · decide
            · exact kept _ (by omega)
            · exact kept _ (by omega)
          exact if_neg notPlus
        rw [List.flatMap_cons, List.append_assoc, formDecode, List.map_append, plain,
          percentDecode_percentByte, ← formDecode, ih, List.cons_append]

theorem formDecode_formEncode (text : String) : formDecode (formEncode text) = bytes text := by
  rw [formEncode, bytes]
  induction text.toList with
  | nil => rfl
  | cons c more ih => rw [List.flatMap_cons, formDecode_char, ih, List.flatMap_cons]

/-! The pairs of a form -/

/-- The names and values in a query. Nothing between two ampersands is no pair. -/
def formPairs (query : List Char) : List (List UInt8 × List UInt8) :=
  ((query.splitOn '&').filter (· ≠ [])).map fun part =>
    (formDecode (part.takeWhile (· ≠ '=')), formDecode ((part.dropWhile (· ≠ '=')).drop 1))

/-- The pairs that the query of an address holds. -/
def form (url : Url) : List (List UInt8 × List UInt8) := formPairs (url.query.getD "").toList

theorem formPairs_formPair (pair : String × String) :
    formPairs (formPair pair) = [(bytes pair.1, bytes pair.2)] := by
  have whole : '&' ∉ formPair pair := by
    rw [formPair, List.mem_append, List.mem_cons]
    rintro (name | ⟨⟨⟩⟩ | value)
    · exact not_mem_formEncode (.inl rfl) name
    · exact not_mem_formEncode (.inl rfl) value
  have name : ∀ c ∈ formEncode pair.1, (c != '=') = true := by
    intro c member
    simpa using fun same : c = '=' => not_mem_formEncode (.inr same) member
  have one : (formPair pair).splitOn '&' = [formPair pair] := List.splitOn_eq_singleton whole
  have some : formPair pair ≠ [] := by simp [formPair]
  have front : (formPair pair).takeWhile (· ≠ '=') = formEncode pair.1 := by
    rw [formPair, List.takeWhile_append_of_pos (by simpa using name)]
    simp
  have behind : ((formPair pair).dropWhile (· ≠ '=')).drop 1 = formEncode pair.2 := by
    rw [formPair, List.dropWhile_append_of_pos (by simpa using name)]
    simp
  have kept : [formPair pair].filter (· ≠ []) = [formPair pair] := by simp [some]
  rw [formPairs, one, kept, List.map_singleton, front, behind, formDecode_formEncode,
    formDecode_formEncode]

theorem formPairs_append (query more : List Char) :
    formPairs (query ++ '&' :: more) = formPairs query ++ formPairs more := by
  have parts : (query ++ '&' :: more).splitOn '&' = query.splitOn '&' ++ more.splitOn '&' :=
    List.splitOnP_append_cons query more (beq_self_eq_true '&')
  rw [formPairs, parts, List.filter_append, List.map_append, formPairs, formPairs]

theorem formPairs_addPair (query : Option String) (pair : String × String) :
    formPairs ((addPair query pair).getD "").toList =
      formPairs (query.getD "").toList ++ [(bytes pair.1, bytes pair.2)] := by
  have nothing : formPairs [] = [] := rfl
  rw [← formPairs_formPair]
  cases query with
  | none => simp [addPair, nothing]
  | some query =>
    by_cases empty : query = ""
    · simp [addPair, empty, nothing]
    · simp [addPair, empty, formPairs_append]

/-- The text of a query that is put together from parts, if there are any. -/
def joined : List String → Option String
  | [] => none
  | part :: more => some ("&".intercalate (part :: more))

/-- The parts of a query that pairs are added to, with the pairs behind them. -/
def partsWith (query : Option String) (pairs : List (String × String)) : List String :=
  query.toList.filter (· ≠ "") ++ pairs.map fun pair => String.ofList (formPair pair)

theorem joined_addPair (query : Option String) (pair : String × String)
    (more : List (String × String)) :
    joined (partsWith (addPair query pair) more) = joined (partsWith query (pair :: more)) := by
  have some : formPair pair ≠ [] := by simp [formPair]
  cases query with
  | none => simp [partsWith, addPair, some]
  | some query =>
    by_cases empty : query = ""
    · simp [partsWith, addPair, empty, some]
    · simp [partsWith, addPair, empty]
      rfl

theorem query_foldl_addPair (query : Option String) (pairs : List (String × String)) :
    (pairs.foldl addPair query).filter (· ≠ "") = joined (partsWith query pairs) := by
  induction pairs generalizing query with
  | nil =>
    cases query with
    | none => rfl
    | some query =>
      by_cases empty : query = ""
      · simp [partsWith, empty, joined]
      · simp [partsWith, empty, joined]
  | cons pair more ih => rw [List.foldl_cons, ih, joined_addPair]

theorem form_foldl_addPair (query : Option String) (pairs : List (String × String)) :
    formPairs ((pairs.foldl addPair query).getD "").toList =
      formPairs (query.getD "").toList ++ pairs.map fun pair => (bytes pair.1, bytes pair.2) := by
  induction pairs generalizing query with
  | nil => simp
  | cons pair more ih => simp [ih, formPairs_addPair]

/-- A request for an address with pairs behind those that it has: the text of its query, and what is
read from that. -/
structure Extends (url : Url) (pairs : List (String × String)) (request : Url) : Prop where
  origin : request.origin = url.origin
  path : request.path = url.path
  query : request.query = joined (partsWith url.query pairs)
  form : request.form = url.form ++ pairs.map fun pair => (bytes pair.1, bytes pair.2)

theorem extends_addPairs (url : Url) (pairs : List (String × String)) :
    url.Extends pairs (url.addPairs pairs) := by
  refine ⟨rfl, rfl, query_foldl_addPair url.query pairs, ?_⟩
  -- A query without text is dropped, and holds no pairs.
  have kept (query : Option String) : (query.filter (· ≠ "")).getD "" = query.getD "" := by
    cases query with
    | none => rfl
    | some query =>
      by_cases empty : query = ""
      · rw [empty]
        rfl
      · simp [Option.filter, empty]
  rw [form, addPairs, kept]
  exact form_foldl_addPair url.query pairs

theorem extends_iff {url request : Url} {pairs : List (String × String)} :
    url.Extends pairs request ↔ request = url.addPairs pairs := by
  constructor
  · intro extends_
    have added := extends_addPairs url pairs
    obtain ⟨origin, path, query⟩ := request
    obtain ⟨rfl, rfl, rfl, -⟩ := extends_
    rw [← added.query]
    rfl
  · rintro rfl
    exact extends_addPairs url pairs

end Url

end SignalExchange
