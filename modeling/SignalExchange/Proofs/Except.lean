import Mathlib.Data.List.Forall2

/-! Actions that give a value or an error. -/

set_option autoImplicit false

namespace SignalExchange

namespace Except

variable {ε δ α β : Type}

@[simp] theorem ok_bind (value : α) (next : α → Except ε β) :
    (Except.ok value >>= next) = next value := rfl

@[simp] theorem error_bind (error : ε) (next : α → Except ε β) :
    (Except.error error >>= next) = .error error := rfl

@[simp] theorem pure_eq (value : α) : (pure value : Except ε α) = .ok value := rfl

@[simp] theorem throw_eq (error : ε) : (throw error : Except ε α) = .error error := rfl

@[simp] theorem map_ok (f : α → β) (value : α) :
    (Except.ok value : Except ε α).map f = .ok (f value) := rfl

@[simp] theorem map_error (f : α → β) (error : ε) :
    (Except.error error : Except ε α).map f = .error error := rfl

@[simp] theorem mapError_ok (f : ε → δ) (value : α) :
    (Except.ok value : Except ε α).mapError f = .ok value := rfl

@[simp] theorem mapError_error (f : ε → δ) (error : ε) :
    (Except.error error : Except ε α).mapError f = .error (f error) := rfl

@[simp] theorem toOption_ok (value : α) :
    (Except.ok value : Except ε α).toOption = some value := rfl

@[simp] theorem toOption_error (error : ε) :
    (Except.error error : Except ε α).toOption = none := rfl

theorem toOption_bind (action : Except ε α) (next : α → Except ε β) :
    (action >>= next).toOption = action.toOption.bind fun value => (next value).toOption := by
  cases action <;> rfl

theorem toOption_eq_some {action : Except ε α} {value : α} :
    action.toOption = some value ↔ action = .ok value := by
  cases action <;> simp

theorem toOption_eq_none {action : Except ε α} :
    action.toOption = none ↔ ∃ error, action = .error error := by
  cases action <;> simp

theorem bind_eq_ok {action : Except ε α} {next : α → Except ε β} {result : β} :
    (action >>= next) = .ok result ↔ ∃ value, action = .ok value ∧ next value = .ok result := by
  cases action <;> simp

theorem bind_eq_error {action : Except ε α} {next : α → Except ε β} {error : ε} :
    (action >>= next) = .error error ↔
      action = .error error ∨ ∃ value, action = .ok value ∧ next value = .error error := by
  cases action <;> simp

theorem mapError_eq_ok {action : Except ε α} {f : ε → δ} {result : α} :
    action.mapError f = .ok result ↔ action = .ok result := by
  cases action <;> simp [Except.mapError]

theorem mapError_eq_error {action : Except ε α} {f : ε → δ} {error : δ} :
    action.mapError f = .error error ↔ ∃ cause, action = .error cause ∧ f cause = error := by
  cases action <;> simp

theorem map_eq_ok {action : Except ε α} {f : α → β} {result : β} :
    action.map f = .ok result ↔ ∃ value, action = .ok value ∧ f value = result := by
  cases action <;> simp

theorem map_eq_error {action : Except ε α} {f : α → β} {error : ε} :
    action.map f = .error error ↔ action = .error error := by
  cases action <;> simp

theorem mapM_eq_ok {action : α → Except ε β} {items : List α} {results : List β} :
    items.mapM action = .ok results ↔
      List.Forall₂ (fun item result => action item = .ok result) items results := by
  induction items generalizing results with
  | nil =>
    rw [List.mapM_nil, pure_eq, List.forall₂_nil_left_iff]
    exact ⟨fun same => (Except.ok.inj same).symm, fun same => congrArg _ same.symm⟩
  | cons item rest ih =>
    rw [List.mapM_cons, List.forall₂_cons_left_iff]
    constructor
    · intro run
      obtain ⟨result, here, run⟩ := bind_eq_ok.1 run
      obtain ⟨more, there, run⟩ := bind_eq_ok.1 run
      cases run
      exact ⟨result, more, here, ih.1 there, rfl⟩
    · rintro ⟨result, more, here, there, rfl⟩
      simp [here, ih.2 there]

/-- When each action gives a known value on a condition, so do all of them together. -/
theorem mapM_eq_ok_map {action : α → Except ε β} {P : α → Prop} {f : α → β} {items : List α}
    {results : List β} (each : ∀ item result, action item = .ok result ↔ P item ∧ result = f item) :
    items.mapM action = .ok results ↔ (∀ item ∈ items, P item) ∧ results = items.map f := by
  rw [mapM_eq_ok]
  simp only [each]
  induction items generalizing results with
  | nil => simp
  | cons item rest ih =>
    rw [List.forall₂_cons_left_iff, List.forall_mem_cons, List.map_cons]
    constructor
    · rintro ⟨result, more, ⟨here, rfl⟩, there, rfl⟩
      obtain ⟨holds, rfl⟩ := ih.1 there
      exact ⟨⟨here, holds⟩, rfl⟩
    · rintro ⟨⟨here, holds⟩, rfl⟩
      exact ⟨f item, rest.map f, ⟨here, rfl⟩, ih.2 ⟨holds, rfl⟩, rfl⟩

theorem length_of_mapM {action : α → Except ε β} {items : List α} {results : List β}
    (run : items.mapM action = .ok results) : results.length = items.length :=
  (mapM_eq_ok.1 run).length_eq.symm

theorem exists_of_mem_mapM {action : α → Except ε β} {items : List α} {results : List β}
    (run : items.mapM action = .ok results) :
    ∀ result ∈ results, ∃ item ∈ items, action item = .ok result := by
  have each := mapM_eq_ok.1 run
  clear run
  induction each with
  | nil => simp
  | @cons item result _ _ here _ ih =>
    rw [List.forall_mem_cons]
    refine ⟨⟨item, List.mem_cons_self, here⟩, fun other member => ?_⟩
    obtain ⟨source, inRest, gives⟩ := ih other member
    exact ⟨source, List.mem_cons_of_mem _ inRest, gives⟩

theorem mapM_eq_error_iff {action : α → Except ε β} {items : List α} {error : ε} :
    items.mapM action = .error error ↔ ∃ before item after, items = before ++ item :: after ∧
      (∀ earlier ∈ before, ∃ result, action earlier = .ok result) ∧
        action item = .error error := by
  induction items with
  | nil => simp
  | cons item rest ih =>
    cases here : action item with
    | error first =>
      simp only [List.mapM_cons, here, error_bind, Except.error.injEq]
      constructor
      · rintro rfl
        exact ⟨[], item, rest, rfl, by simp, here⟩
      -- The first action fails, so nothing stands before the one that fails.
      · rintro ⟨before, other, after, split, good, fails⟩
        cases before with
        | nil =>
          cases split
          exact Except.error.inj (here.symm.trans fails)
        | cons _ _ =>
          cases split
          obtain ⟨result, gives⟩ := good item List.mem_cons_self
          cases here.symm.trans gives
    | ok value =>
      rw [List.mapM_cons, here, ok_bind]
      have later : (rest.mapM action >>= fun values => pure (value :: values)) = .error error ↔
          rest.mapM action = .error error := by
        cases rest.mapM action <;> simp
      rw [later, ih]
      constructor
      · rintro ⟨before, other, after, rfl, good, fails⟩
        exact ⟨item :: before, other, after, rfl,
          List.forall_mem_cons.2 ⟨⟨value, here⟩, good⟩, fails⟩
      · rintro ⟨before, other, after, split, good, fails⟩
        cases before with
        | nil =>
          cases split
          cases here.symm.trans fails
        | cons _ before =>
          cases split
          exact ⟨before, other, after, rfl, (List.forall_mem_cons.1 good).2, fails⟩

theorem mapM_eq_error {action : α → Except ε β} {items : List α} {error : ε}
    (failed : items.mapM action = .error error) : ∃ item ∈ items, action item = .error error := by
  obtain ⟨before, item, after, rfl, -, fails⟩ := mapM_eq_error_iff.1 failed
  exact ⟨item, by simp, fails⟩

theorem exists_forall₂_iff {R : α → β → Prop} {items : List α} :
    (∃ partners, List.Forall₂ R items partners) ↔ ∀ item ∈ items, ∃ partner, R item partner := by
  induction items with
  | nil => simp
  | cons item rest ih =>
    rw [List.forall_mem_cons, ← ih]
    simp only [List.forall₂_cons_left_iff]
    constructor
    · rintro ⟨_, partner, more, here, there, -⟩
      exact ⟨⟨partner, here⟩, more, there⟩
    · rintro ⟨⟨partner, here⟩, more, there⟩
      exact ⟨partner :: more, partner, more, here, there, rfl⟩

theorem exists_mapM_eq_ok {action : α → Except ε β} {items : List α} :
    (∃ results, items.mapM action = .ok results) ↔
      ∀ item ∈ items, ∃ result, action item = .ok result := by
  simp only [mapM_eq_ok, exists_forall₂_iff]

theorem forM_eq_ok {action : α → Except ε Unit} {items : List α} :
    items.forM action = .ok () ↔ ∀ item ∈ items, action item = .ok () := by
  induction items with
  | nil => simp
  | cons item rest ih =>
    rw [List.forall_mem_cons, ← ih]
    refine Iff.trans (@bind_eq_ok _ _ _ (action item) _ _) ?_
    constructor
    · rintro ⟨_, here, there⟩
      exact ⟨here, there⟩
    · rintro ⟨here, there⟩
      exact ⟨(), here, there⟩

theorem forM_eq_error {action : α → Except ε Unit} {items : List α} {error : ε}
    (failed : items.forM action = .error error) : ∃ item ∈ items, action item = .error error := by
  induction items with
  | nil => cases failed
  | cons item rest ih =>
    cases here : action item with
    | error first =>
      have stopped : (action item >>= fun _ => rest.forM action) = .error error := failed
      rw [here] at stopped
      cases stopped
      exact ⟨item, List.mem_cons_self, here⟩
    | ok value =>
      have later : (action item >>= fun _ => rest.forM action) = .error error := failed
      rw [here] at later
      obtain ⟨other, member, found⟩ := ih later
      exact ⟨other, List.mem_cons_of_mem _ member, found⟩

theorem foldlM_preserves {P : β → Prop} {step : β → α → Except ε β}
    (keeps : ∀ state item next, P state → step state item = .ok next → P next) {items : List α}
    {start final : β} (holds : P start) (run : items.foldlM step start = .ok final) : P final := by
  induction items generalizing start with
  | nil =>
    cases run
    exact holds
  | cons item rest ih =>
    rw [List.foldlM_cons] at run
    obtain ⟨next, stepped, run⟩ := bind_eq_ok.1 run
    exact ih (keeps start item next holds stepped) run

/-- A fold fails with the step for some item, on a state that has what every step keeps. -/
theorem foldlM_eq_error {P : β → Prop} {step : β → α → Except ε β}
    (keeps : ∀ state item next, P state → step state item = .ok next → P next) {items : List α}
    {start : β} {error : ε} (holds : P start) (failed : items.foldlM step start = .error error) :
    ∃ item ∈ items, ∃ state, P state ∧ step state item = .error error := by
  induction items generalizing start with
  | nil => cases failed
  | cons item rest ih =>
    rw [List.foldlM_cons] at failed
    rcases bind_eq_error.1 failed with here | ⟨next, stepped, later⟩
    · exact ⟨item, List.mem_cons_self, start, holds, here⟩
    · obtain ⟨other, member, found⟩ := ih (keeps start item next holds stepped) later
      exact ⟨other, List.mem_cons_of_mem _ member, found⟩

/-- What the step for an item brings about, and every step keeps, holds for all items. -/
theorem foldlM_establishes {P : α → β → Prop} {step : β → α → Except ε β}
    (brings : ∀ state item next, step state item = .ok next → P item next)
    (keeps : ∀ other state item next, P other state → step state item = .ok next → P other next)
    {items : List α} {start final : β} (run : items.foldlM step start = .ok final) :
    ∀ item ∈ items, P item final := by
  induction items generalizing start with
  | nil => exact fun _ member => nomatch member
  | cons item rest ih =>
    rw [List.foldlM_cons] at run
    obtain ⟨next, stepped, run⟩ := bind_eq_ok.1 run
    rw [List.forall_mem_cons]
    exact ⟨foldlM_preserves (keeps item) (brings start item next stepped) run, ih run⟩

end Except

end SignalExchange
