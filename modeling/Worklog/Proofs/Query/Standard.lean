import Worklog.Proofs.Field.Matcher
import Worklog.Proofs.Query.Interpretation

/-!
# The language's own fields

A default registry has the language's own fields, with or without those that registries may add
(`Registry.IsDefault`), so every handler in it is one of the standard ones. The queries that it
compiles have matchers that judge every entry (`IsDefault.judgesAll`), and it is what they ask of
years, months and days that restricts time (`IsDefault.temporal_iff`).
-/

namespace Worklog

/-! ## Standard handlers -/

theorem Rule.ofName?_name (r : Rule) : ofName? r.name = some r := by
  cases r <;> decide +kernel

theorem Rule.name_injective : Function.Injective name := by
  intro r s h
  rw [← Option.some.injEq, ← ofName?_name r, h, ofName?_name]

namespace FieldHandler

theorem key_standard (r : Rule) : (standard r).key = r.name := by
  cases r <;> decide +kernel

theorem operators_standard {r : Rule} (h : r = .utilization ∨ r = .value ∨ r = .hours) :
    (standard r).operators = thresholds :=
  if_pos h

/-- What a standard handler of thresholds accepts can be compared with a threshold. -/
theorem hasThreshold_of_accepts {r : Rule} {t : Test Value}
    (accepts : (standard r).accepts t.operator = true)
    (compares : ∀ op v, t = .compare op v → op ≠ .between)
    (h : r = .utilization ∨ r = .value ∨ r = .hours) : t.HasThreshold := by
  cases t with
  | range low high => trivial
  | compare op v =>
    have hop : op ≠ .between := compares op v rfl
    simp only [FieldHandler.accepts, Test.operator, if_neg hop, operators_standard h,
      decide_eq_true_eq] at accepts
    exact accepts

theorem temporal_standard_iff {r : Rule} :
    (standard r).temporal = true ↔ (standard r).name ∈ ["year", "month", "date"] := by
  cases r <;> decide

end FieldHandler

/-! ## Default registries -/

namespace Registry

/-- The registry of the language's own fields, to which those of entries may have been added. -/
def IsDefault (r : Registry) : Prop :=
  r = .standard ∨ ∃ replace, r = (Registry.standard.edit (.addEntryFields replace)).1

theorem exists_rule_of_mem_standard {h : FieldHandler} (mem : h ∈ Registry.standard.handlers) :
    ∃ r, h = .standard r := by
  rcases mem_of_mem_registerAll h mem with mem | mem
  · cases mem
  · obtain ⟨r, -, rfl⟩ := List.mem_map.1 mem
    exact ⟨r, rfl⟩

theorem name_mem_names {registry : Registry} {r : Rule}
    (found : registry.get? r.name = some (.standard r)) : r.name ∈ registry.names := by
  rw [mem_names_iff, hasKey, decide_eq_true_iff]
  exact List.mem_map.2 ⟨_, mem_of_get? found, FieldHandler.key_standard r⟩

namespace IsDefault

variable {registry : Registry} (hr : registry.IsDefault)

include hr

theorem exists_rule {h : FieldHandler} (mem : h ∈ registry.handlers) : ∃ r, h = .standard r := by
  rcases hr with rfl | ⟨replace, rfl⟩
  · exact exists_rule_of_mem_standard mem
  · rcases mem_of_mem_registerAll h mem with mem | mem
    · exact exists_rule_of_mem_standard mem
    · obtain ⟨r, -, rfl⟩ := List.mem_map.1 mem
      exact ⟨r, rfl⟩

/-- Under the name of a rule there is nothing but its standard handler. -/
theorem eq_standard {r : Rule} {h : FieldHandler} (found : registry.get? r.name = some h) :
    h = .standard r := by
  obtain ⟨s, rfl⟩ := hr.exists_rule (mem_of_get? found)
  have key : (FieldHandler.standard s).key = (FieldHandler.standard r).key :=
    beq_iff_eq.1 (List.find?_some found :)
  rw [FieldHandler.key_standard, FieldHandler.key_standard] at key
  rw [Rule.name_injective key]

/-- The language's own fields are always known. -/
theorem get?_standard {r : Rule} (own : FieldHandler.standard r ∈ standardHandlers) :
    registry.get? r.name = some (.standard r) := by
  have all : ∀ h ∈ standardHandlers, registry.get? h.name = some h := by
    rcases hr with rfl | ⟨replace, rfl⟩
    · decide +kernel
    · cases replace <;> decide +kernel
  have name : (FieldHandler.standard r).name = r.name := rfl
  exact name ▸ all _ own

theorem get?_date : registry.get? "date" = some (.standard .date) :=
  hr.get?_standard (r := .date) (by decide +kernel)

theorem date_mem_names : "date" ∈ registry.names :=
  name_mem_names (r := .date) hr.get?_date

/-- What a handler of years or days asks for restricts time. -/
theorem temporal_of_rule {h : FieldHandler} (mem : h ∈ registry.handlers)
    (rule : h.rule = .year ∨ h.rule = .date) : h.temporal = true := by
  obtain ⟨r, rfl⟩ := hr.exists_rule mem
  rcases rule with rule | rule
  · cases rule
    rfl
  · cases rule
    rfl

variable {text : String} {q : Query} (hq : Query.compile registry text = .ok q)

include hq

/-- Every predicate of a compiled text judges every entry. -/
theorem judgesAll (settings : Settings) :
    ∀ p ∈ q.predicates, JudgesAll (p.matcher registry settings) := by
  intro p hp
  obtain ⟨⟨h, hread⟩, compares⟩ := readBy_of_compile hq p hp
  obtain ⟨r, rfl⟩ := hr.exists_rule (mem_of_get? hread.found)
  rw [Predicate.matcher_of_get? hread.found]
  exact Rule.judges_of_suits hread.suits
    fun ht => FieldHandler.hasThreshold_of_accepts hread.accepts compares ht

/-- A predicate restricts time if it is about years, months or days. -/
theorem temporal_iff {p : Predicate} (hp : p ∈ q.predicates) :
    (∃ h, registry.get? p.field = some h ∧ h.temporal = true) ↔
      p.field ∈ ["year", "month", "date"] := by
  obtain ⟨⟨h, hread⟩, -⟩ := readBy_of_compile hq p hp
  obtain ⟨r, rfl⟩ := hr.exists_rule (mem_of_get? hread.found)
  rw [hread.field_eq, ← FieldHandler.temporal_standard_iff, ← hread.field_eq]
  constructor
  · rintro ⟨h, hfound, ht⟩
    have same : FieldHandler.standard r = h := Option.some.inj (hread.found.symm.trans hfound)
    exact same ▸ ht
  · exact fun ht => ⟨_, hread.found, ht⟩

end IsDefault

end Registry

end Worklog
