import Mathlib.Data.List.DropRight
import SignalExchange.Web.Server

/-! Addresses below an address.

What stands behind a slash is part of the path, so the server of an address also answers below it.
-/

set_option autoImplicit false

namespace SignalExchange

namespace Url

variable {base below : List Char}

/-- Between the two texts there is no white space that could be dropped. -/
theorem trimmed_append (reads : trimmed base ≠ []) (ends : ∀ c ∈ base.getLast?, 32 < c.toNat)
    (long : below ≠ []) (plain : ∀ c ∈ below, 32 < c.toNat) :
    trimmed (base ++ below) = trimmed base ++ below := by
  have bare {text : List Char} (ends : ∀ c ∈ text.getLast?, 32 < c.toNat) :
      (text.reverse.dropWhile (·.toNat ≤ 32)).reverse = text := by
    refine List.rdropWhile_eq_self_iff.2 fun some => ?_
    simpa using ends _ (List.getLast?_eq_some_getLast some)
  -- White space is dropped in front of the base, and behind what follows it, where there is none.
  have visible : base.dropWhile (·.toNat ≤ 32) ≠ [] := by
    intro none
    simp [trimmed, none] at reads
  have starts : (base ++ below).dropWhile (·.toNat ≤ 32) =
      base.dropWhile (·.toNat ≤ 32) ++ below := by
    rw [List.dropWhile_append, if_neg (by simpa using visible)]
  have last : (base.dropWhile (·.toNat ≤ 32)).getLast? = base.getLast? := by
    conv_rhs => rw [← List.takeWhile_append_dropWhile (p := (·.toNat ≤ 32)) (l := base)]
    rw [List.getLast?_append_of_ne_nil _ visible]
  have kept : below.filter (fun c => c ∉ ['\t', '\n', '\r']) = below := by
    have breaks : ∀ c ∈ ['\t', '\n', '\r'], c.toNat ≤ 32 := by
      simp only [List.forall_mem_cons]
      exact ⟨by decide, by decide, by decide, nofun⟩
    refine List.filter_eq_self.2 fun c member => decide_eq_true fun isBreak => ?_
    exact absurd (breaks c isBreak) (Nat.not_le.2 (plain c member))
  have behind : ∀ c ∈ (base.dropWhile (·.toNat ≤ 32) ++ below).getLast?, 32 < c.toNat := by
    rw [List.getLast?_append_of_ne_nil _ long]
    exact fun c member => plain c (List.mem_of_getLast? member)
  rw [← last] at ends
  simp only [trimmed]
  rw [starts, bare behind, bare ends, List.filter_append, kept]

/-- Where the characters in front end, more text behind does not count. -/
theorem takeWhile_append_of_stops {text : List Char} {front : Char → Bool}
    (stops : text.dropWhile front ≠ []) (more : List Char) :
    (text ++ more).takeWhile front = text.takeWhile front := by
  have whole := congrArg List.length (List.takeWhile_append_dropWhile (p := front) (l := text))
  have rest := List.length_pos_iff.2 stops
  rw [List.length_append] at whole
  rw [List.takeWhile_append, if_neg (by omega)]

theorem dropWhile_append_of_stops {text : List Char} {front : Char → Bool}
    (stops : text.dropWhile front ≠ []) (more : List Char) :
    (text ++ more).dropWhile front = text.dropWhile front ++ more := by
  rw [List.dropWhile_append, if_neg (by simpa using stops)]

theorem scheme?_append {text rest : List Char} {name : String} {usual : Nat}
    (reads : scheme? text = some (name, usual, rest)) (more : List Char) :
    scheme? (text ++ more) = some (name, usual, rest ++ more) := by
  unfold scheme? at reads ⊢
  split at reads
  · cases reads
  next mark behind found =>
    have stops : text.dropWhile (· ≠ ':') ≠ [] := by
      rw [found]
      exact List.cons_ne_nil _ _
    rw [takeWhile_append_of_stops stops, dropWhile_append_of_stops stops, found]
    dsimp only [List.cons_append] at reads ⊢
    split at reads
    next isHttp =>
      cases reads
      rw [if_pos isHttp]
    next notHttp =>
      split at reads
      next isHttps =>
        cases reads
        rw [if_neg notHttp, if_pos isHttps]
      next => cases reads

theorem normalHost_nil (usual : Nat) : normalHost usual [] = none := by
  have nameless : HostName.read [] = some "" := by decide
  simp [normalHost, splitHost, readHost, nameless]

theorem takeWhile_host (text more : List Char) :
    (text ++ '/' :: more).takeWhile (!endsAuthority ·) = text.takeWhile (!endsAuthority ·) := by
  have slash : endsAuthority '/' = true := rfl
  by_cases stops : text.dropWhile (!endsAuthority ·) = []
  · have open_ := List.dropWhile_eq_nil_iff.1 stops
    rw [List.takeWhile_append_of_pos open_, List.takeWhile_cons_of_neg (by simp [slash]),
      List.append_nil, List.takeWhile_eq_self_iff.2 open_]
  · exact takeWhile_append_of_stops stops _

end Url

namespace Server

open Url

/-- The address can be used, and somebody can be reached there. -/
def Answers (server : Server) (address : String) : Prop :=
  ∃ url, Url.read address = some url ∧ server.answersAt url.origin = true

variable {server : Server} {address : String}

theorem answers_iff : server.Answers address ↔ ∃ name usual rest host,
    scheme? (trimmed address.toList) = some (name, usual, rest) ∧
    normalHost usual ((rest.dropWhile isSlash).takeWhile (!endsAuthority ·)) = some host ∧
    server.answersAt (name ++ "://" ++ host) = true := by
  constructor
  · rintro ⟨url, reads, here⟩
    obtain ⟨⟨name, usual, rest⟩, scheme, reads⟩ := Option.bind_eq_some_iff.1 reads
    obtain ⟨host, named, same⟩ := Option.bind_eq_some_iff.1 reads
    cases same
    exact ⟨name, usual, rest, host, scheme, named, here⟩
  · rintro ⟨name, usual, rest, host, scheme, named, here⟩
    exact ⟨_, Option.bind_eq_some_iff.2 ⟨_, scheme,
      Option.bind_eq_some_iff.2 ⟨_, named, rfl⟩⟩, here⟩

theorem Answers.below (answers : server.Answers address)
    (ends : ∀ c ∈ address.toList.getLast?, 32 < c.toNat) {segment : String}
    (plain : ∀ c ∈ segment.toList, 32 < c.toNat) :
    server.Answers (address ++ "/" ++ segment) := by
  obtain ⟨name, usual, rest, host, scheme, named, here⟩ := answers_iff.1 answers
  have some : trimmed address.toList ≠ [] := by
    intro none
    rw [none] at scheme
    cases scheme
  have authority : rest.dropWhile isSlash ≠ [] := by
    intro none
    rw [none, List.takeWhile_nil, normalHost_nil] at named
    cases named
  have spelled : (address ++ "/" ++ segment).toList = address.toList ++ '/' :: segment.toList := by
    simp
  have visible : ∀ c ∈ '/' :: segment.toList, 32 < c.toNat := by
    rw [List.forall_mem_cons]
    exact ⟨by decide, plain⟩
  refine answers_iff.2 ⟨name, usual, rest ++ '/' :: segment.toList, host, ?_, ?_, here⟩
  · rw [spelled, trimmed_append some ends (List.cons_ne_nil _ _) visible]
    exact scheme?_append scheme _
  · rw [dropWhile_append_of_stops authority, takeWhile_host]
    exact named

end Server

end SignalExchange
