import SignalExchange.ConfigError

/-! Kinds of content, and the kinds of signal that can be derived from them. -/

set_option autoImplicit false

namespace SignalExchange

structure ContentType where
  name : String
  qualifiedName : String
  deriving DecidableEq, Repr

structure SignalType where
  name : String
  qualifiedName : String
  /-- The names of the content types that the signal applies to. -/
  contentTypes : List String
  deriving DecidableEq, Repr

/-- The first element of a list that stands in it before. -/
def firstRepeated (earlier : List String) : List String → Option String
  | [] => none
  | name :: rest =>
    if name ∈ earlier then some name else firstRepeated (name :: earlier) rest

theorem firstRepeated_eq_none_iff (earlier names : List String) :
    firstRepeated earlier names = none ↔ names.Nodup ∧ ∀ name ∈ names, name ∉ earlier := by
  induction names generalizing earlier with
  | nil => simp [firstRepeated]
  | cons name rest ih =>
    by_cases member : name ∈ earlier
    · simp [firstRepeated, member]
    · simp only [firstRepeated, member, if_false, ih, List.nodup_cons, List.mem_cons, not_or,
        forall_eq_or_imp, not_false_eq_true, true_and]
      constructor
      · rintro ⟨nodup, fresh⟩
        exact ⟨⟨fun again => (fresh name again).1 rfl, nodup⟩, fun other h => (fresh other h).2⟩
      · rintro ⟨⟨once, nodup⟩, fresh⟩
        refine ⟨nodup, fun other h => ⟨fun same => once (same ▸ h), fresh other h⟩⟩

def distinct (kind : String) (names : List String) : Except ConfigError Unit :=
  match firstRepeated [] names with
  | some name => .error (.duplicateRegistration kind name)
  | none => .ok ()

/-- Content types and signal types; `TypeMapping.build` is how a consistent one is made. -/
structure TypeMapping where
  contentTypes : List ContentType
  signalTypes : List SignalType
  deriving DecidableEq, Repr

namespace TypeMapping

def checkSignal (contentTypes : List ContentType) (signal : SignalType) :
    Except ConfigError Unit :=
  match signal.contentTypes.find? fun name => name ∉ contentTypes.map (·.name) with
  | some missing => .error (.incompatibleSignalType signal.name missing)
  | none => .ok ()

/-- Names are unique for each kind, and signals refer to known content types. -/
def build (contentTypes : List ContentType) (signalTypes : List SignalType) :
    Except ConfigError TypeMapping := do
  distinct "content type" (contentTypes.map (·.name))
  distinct "signal type" (signalTypes.map (·.name))
  signalTypes.forM (checkSignal contentTypes)
  return ⟨contentTypes, signalTypes⟩

def contentType? (mapping : TypeMapping) (name : String) : Option ContentType :=
  mapping.contentTypes.find? fun type => type.name = name

def signalType? (mapping : TypeMapping) (name : String) : Option SignalType :=
  mapping.signalTypes.find? fun type => type.name = name

end TypeMapping

end SignalExchange
