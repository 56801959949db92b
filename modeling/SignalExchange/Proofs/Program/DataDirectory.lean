import SignalExchange.Proofs.Program.CommandLine

/-! The two readings of the data directory.

The database has to be open before the words can be matched, so the directory is looked for among
the words alone. Both readings see the same occurrences of the flag. The first decides which
database is opened, the last is what the words are matched to.
-/

set_option autoImplicit false

namespace SignalExchange

namespace DataDirectory

open CommandTree

theorem directory_of_brings {taken : List String} {values : List Json}
    (brings : dataDirectory.Brings taken values) :
    ∃ directory, taken = [directory] ∧ values = [.string directory] := by
  obtain ⟨some, few⟩ : 1 ≤ taken.length ∧ taken.length ≤ 1 := Argument.length_of_brings brings
  have read := Argument.read_of_brings brings nofun rfl
  rcases taken with _ | ⟨directory, _ | ⟨other, rest⟩⟩
  · simp at some
  · obtain ⟨json, none, reads, ⟨⟩, rfl⟩ := List.forall₂_cons_left_iff.1 read
    have path : (if directory = "" then .error ValueFault.empty else .ok (.string directory)) =
      Except.ok json := reads
    split at path
    · cases path
    · cases path
      exact ⟨directory, rfl, rfl⟩
  · simp at few

theorem withoutStart_eq_some_iff {start text rest : List Char} :
    withoutStart start text = some rest ↔ text = start ++ rest := by
  induction start generalizing text with
  | nil => simp [withoutStart, eq_comm]
  | cons c start ih =>
    cases text with
    | nil => simp [withoutStart]
    | cons d text =>
      by_cases same : c = d
      · simp [withoutStart, same, ih]
      · simp [withoutStart, same, Ne.symm same]

theorem named?_iff {word : String} {attached : Option String} :
    dataDirectory.named? word = some attached ↔
      match attached with
      | none => word = flag
      | some value => withoutStart attachedFlag word.toList = some value.toList := by
  rw [Argument.named?_eq_some_iff rfl (by decide : '=' ∉ "data-dir".toList)]
  cases attached with
  | none => simp [flag]
  | some value =>
    simp only [withoutStart_eq_some_iff, ← String.toList_inj]
    simp [attachedFlag, flag]

theorem fromWords_eq {words given : List String}
    (all : dataDirectory.given words = given.map fun directory => [directory]) :
    fromWords words = given.head? := by
  induction words with
  | nil =>
    cases given with
    | nil => rfl
    | cons => cases all
  | cons word rest ih =>
    rw [fromWords]
    rw [Argument.given] at all
    split
    next isEnd =>
      rw [if_pos isEnd] at all
      cases given with
      | nil => rfl
      | cons => cases all
    next notEnd =>
      rw [if_neg notEnd] at all
      split
      next bare =>
        -- The value is the next word, which the argument takes as well.
        have isNamed : dataDirectory.named? word = some none := named?_iff.2 bare
        simp only [isNamed] at all
        cases given with
        | nil => cases all
        | cons directory others =>
          have first : (rest.takeWhile isPlain).take 1 = [directory] := (List.cons.inj all).1
          cases rest with
          | nil => cases first
          | cons next rest =>
            by_cases plain : isPlain next = true
            · simpa [plain] using first
            · simp [plain] at first
      next spaced =>
        split
        next value attached =>
          have isNamed : dataDirectory.named? word = some (some (String.ofList value)) :=
            named?_iff.2 (by simpa using attached)
          simp only [isNamed] at all
          cases given with
          | nil => cases all
          | cons directory others => simpa using (List.cons.inj all).1
        next unmarked =>
          have unnamed : dataDirectory.named? word = none := by
            refine Option.eq_none_iff_forall_ne_some.2 fun attached isNamed => ?_
            cases attached with
            | none => exact spaced (named?_iff.1 isNamed)
            | some value => cases unmarked.symm.trans (named?_iff.1 isNamed)
          simp only [unnamed] at all
          exact ih all

end DataDirectory

namespace Program

open Call CommandTree

/-- The words give the same directories to both readings. The database of the first one is opened,
and the last one is what the words are matched to. So either both find a directory or none does,
and they agree where it is given once. -/
theorem directories_of_matched {words : List String} {session : Session} {found : Matches}
    (accepted : (outcome (matched words) session).1 = .ok (.ok found)) :
    ∃ given : List String,
      dataDirectory.given words = given.map (fun directory => [directory]) ∧
      DataDirectory.fromWords words = given.head? ∧
      found.global? dataDirectory.id = given.getLast?.map (fun directory => [.string directory]) ∧
      (∀ environment first, given.head? = some first →
        DataDirectory.locate environment words = .ok first) ∧
      (DataDirectory.fromWords words = none ↔ found.global? dataDirectory.id = none) ∧
      (given.length ≤ 1 → found.global? dataDirectory.id =
        (DataDirectory.fromWords words).map fun directory => [.string directory]) := by
  obtain ⟨workspace, surfaces, takes⟩ := takes_of_matched accepted
  have shared := Argument.shared_of_reads (Command.reads_of_parse takes.parsed)
    fun before inner _ leads => parts_of_takes takes leads
  have read := shared.levels (by decide)
  obtain ⟨given, same, levels⟩ :=
    exists_map_of_forall₂ (fun _ _ => DataDirectory.directory_of_brings) read
  have first := DataDirectory.fromWords_eq same
  have last : found.global? dataDirectory.id = _ :=
    (found.global?_eq _).trans ((congrArg _ levels).trans List.getLast?_map)
  refine ⟨given, same, first, last, fun environment directory isFirst => ?_, ?_, fun once => ?_⟩
  · rw [DataDirectory.locate, first, isFirst]
  · rw [first, last, Option.map_eq_none_iff, List.head?_eq_none_iff, List.getLast?_eq_none_iff]
  · rw [first, last]
    match given, once with
    | [], _ => rfl
    | [directory], _ => rfl

/-- A directory that is given behind the commands is found as well. -/
theorem directory_behind_commands : ∃ found,
    (outcome (matched ["config", "collab", "list", "--data-dir=d"]) freshSession).1 =
      .ok (.ok found) ∧
    found.global? dataDirectory.id = some [.string "d"] ∧
    DataDirectory.locate freshHome ["config", "collab", "list", "--data-dir=d"] = .ok "d" := by
  obtain ⟨found, accepted⟩ : ∃ found,
      (outcome (matched ["config", "collab", "list", "--data-dir=d"]) freshSession).1 =
        .ok (.ok found) := ⟨_, rfl⟩
  obtain ⟨given, same, -, last, opened, -⟩ := directories_of_matched accepted
  have one : given.map (fun directory => [directory]) = [["d"]] :=
    same.symm.trans (by decide +kernel)
  obtain ⟨rfl⟩ : given = ["d"] := by simpa using one
  exact ⟨found, accepted, last, opened _ _ rfl⟩

/-- A directory that is given again further in is what the words are matched to, but the database
of the one before is opened. -/
theorem directory_given_twice : ∃ found,
    (outcome (matched ["--data-dir", "a", "config", "--data-dir", "b", "collab"])
      freshSession).1 = .ok (.ok found) ∧
    found.global? dataDirectory.id = some [.string "b"] ∧
    DataDirectory.locate freshHome ["--data-dir", "a", "config", "--data-dir", "b", "collab"] =
      .ok "a" :=
  ⟨_, rfl, rfl, rfl⟩

end Program

end SignalExchange
