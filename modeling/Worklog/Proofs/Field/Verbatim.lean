import Worklog.Proofs.Plan.Overruled
import Worklog.Proofs.Query.Standard
import Worklog.Proofs.Text.Verbatim

/-!
# Fields that are searched for a text

A source looks for the text of its filter in the project of an entry, and the rules of text fields
look for theirs in some of an entry's texts. Either way an entry that holds the text as it stands
is kept if the text is settled, and no other text keeps every such entry
(`Predicate.keepsVerbatim_iff`). So an entry of a project may be missed by the start of the
project's own name (`Predicate.exists_missed`).
-/

namespace Worklog

open Text

/-! ## Looking in the texts of entries -/

theorem Text.mentions_iff {needle : String} {texts : List (Option String)} :
    mentions needle texts = true ↔ ∃ s, some s ∈ texts ∧ mentions needle [some s] = true := by
  induction texts with
  | nil => simp [mentions]
  | cons text texts ih =>
    rw [mentions, List.any_cons, Bool.or_eq_true]
    change _ ∨ mentions needle texts = true ↔ _
    rw [ih]
    cases text with
    | none => simp
    | some s => simp [mentions]

/-- Every entry is admitted that has the needle, as it stands, in one of the texts. -/
def KeepsVerbatim (admits : Entry → Bool) (texts : Entry → List (Option String))
    (needle : String) : Prop :=
  ∀ e s, some s ∈ texts e → needle.toList <:+: s.toList → admits e = true

/-- The texts of an entry that a rule looks in. -/
def Rule.texts (r : Rule) (e : Entry) : List (Option String) :=
  match r with
  | .project => [e.project]
  | .service => [e.project, e.notes]
  | .category => [e.category, e.notes]
  | .client => [e.client]
  | .year | .month | .date | .utilization | .value | .hours => []

/-- An entry whose project and category are one text, and which has no other. -/
def Entry.named (s : String) : Entry :=
  { Entry.blank Plan.lateAugust (some s) with category := some s }

/-- The rules of the text fields that every default registry has. -/
def Rule.searching : List Rule :=
  [.project, .service, .category]

theorem Rule.texts_named {r : Rule} (hr : r ∈ searching) (s : String) :
    some s ∈ r.texts (.named s) ∧ ∀ text ∈ r.texts (.named s), text = some s ∨ text = none := by
  simp only [searching, List.mem_cons, List.not_mem_nil, or_false] at hr
  rcases hr with rfl | rfl | rfl <;> simp [texts, Entry.named, Entry.blank]

section Needle

variable {r : Rule} {needle : String}

/-- What looks for a text in those of a rule keeps all that hold it if and only if it is settled. -/
theorem keepsVerbatim_iff_isSettled {admits : Entry → Bool} (hr : r ∈ Rule.searching)
    (h : needle ≠ "") (looks : ∀ e, admits e = mentions needle (r.texts e)) :
    KeepsVerbatim admits r.texts needle ↔ isSettled [] needle.toList = true := by
  rw [← mentions_iff_isSettled h]
  constructor
  · intro keeps s occurs
    obtain ⟨mem, only⟩ := Rule.texts_named hr s
    obtain ⟨s', mem', found⟩ := mentions_iff.1 ((looks _).symm.trans (keeps _ s mem occurs))
    obtain same | absent := only _ mem'
    · rwa [← same]
    · cases absent
  · intro found e s mem occurs
    rw [looks]
    exact mentions_iff.2 ⟨s, mem, found s occurs⟩

/-! ## Filters and predicates -/

theorem Filter.admits_project (h : needle ≠ "") (e : Entry) :
    Filter.admits { project := some needle } e = mentions needle (Rule.project.texts e) := by
  have present : needle.isEmpty = false := by simpa using h
  simp [admits, Rule.texts, present]

theorem Rule.admits_text (hr : r ∈ searching) (settings : Settings) (op : Operator) (e : Entry) :
    r.admits (.compare op (.text needle)) settings e = mentions needle (r.texts e) := by
  simp only [searching, List.mem_cons, List.not_mem_nil, or_false] at hr
  rcases hr with rfl | rfl | rfl <;> rfl

theorem Registry.IsDefault.get?_searching {registry : Registry} (hr : registry.IsDefault) :
    ∀ r ∈ Rule.searching, registry.get? r.name = some (.standard r) := by
  have own : ∀ r ∈ Rule.searching, FieldHandler.standard r ∈ standardHandlers := by decide +kernel
  exact fun r mem => hr.get?_standard (own r mem)

namespace Predicate

/-- The predicate that a field of text holds a text. -/
def holds (r : Rule) (needle : String) : Predicate :=
  ⟨r.name, .compare .eq (.text needle)⟩

/--
A text that is not blank is found wherever it occurs as it stands, by a source and by the rules of
the project, the service and the category, if and only if it is settled. A text without a capital
sigma is.
-/
theorem keepsVerbatim_iff {registry : Registry} (hr : registry.IsDefault) (settings : Settings)
    (h : isAllBlank needle = false) :
    ('Σ' ∉ needle.toList → isSettled [] needle.toList = true) ∧
    ((∀ s : String, needle.toList <:+: s.toList → mentions needle [some s] = true) ↔
      isSettled [] needle.toList = true) ∧
    (KeepsVerbatim ({ project := some needle } : Filter).admits Rule.project.texts needle ↔
      isSettled [] needle.toList = true) ∧
    ∀ r ∈ Rule.searching,
      (KeepsVerbatim ((holds r needle).admits registry settings) r.texts needle ↔
        isSettled [] needle.toList = true) := by
  have present : needle ≠ "" := by
    rintro rfl
    exact absurd h (by decide +kernel)
  refine ⟨isSettled_of_notMem [], mentions_iff_isSettled present,
    keepsVerbatim_iff_isSettled (.head _) present (Filter.admits_project present), fun r mem => ?_⟩
  have looks (e : Entry) :
      (holds r needle).admits registry settings e = mentions needle (r.texts e) := by
    rw [admits_of_get? (p := holds r needle) (hr.get?_searching r mem)]
    exact Rule.admits_text mem settings .eq e
  exact keepsVerbatim_iff_isSettled mem present looks

end Predicate

end Needle

namespace Predicate

/-- The sigma at the end of a word is settled by a blank behind it. -/
theorem keepsVerbatim_street :
    isAllBlank "ΟΔΟΣ 7" = false ∧
      KeepsVerbatim ((holds .project "ΟΔΟΣ 7").admits .standard .default) Rule.project.texts
        "ΟΔΟΣ 7" := by
  have present : isAllBlank "ΟΔΟΣ 7" = false := by decide +kernel
  have kept := (keepsVerbatim_iff (.inl rfl) .default present).2.2.2 .project (.head _)
  exact ⟨present, kept.2 (by decide +kernel)⟩

/-- A text that ends in a sigma is missed in a word that goes on behind it. -/
theorem exists_missed :
    isAllBlank "ΑΣ" = false ∧ "ΑΣ".toList <:+: "ΑΣΤΥ".toList ∧
      mentions "ΑΣ" [some "ΑΣΤΥ"] = false ∧
      Filter.admits { project := some "ΑΣ" } (.named "ΑΣΤΥ") = false ∧
      ∀ r ∈ Rule.searching, (holds r "ΑΣ").admits .standard .default (.named "ΑΣΤΥ") = false := by
  decide +kernel

end Predicate

end Worklog
