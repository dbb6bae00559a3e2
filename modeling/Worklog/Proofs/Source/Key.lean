import Worklog.Filter
import Worklog.Proofs.Date.Basic
import Worklog.Proofs.Json.Writer

/-!
# Keys of filters

Different filters have different keys (`cacheKey_injective`), whatever text is asked for in the
project. Each part of a key can be told from what follows it: a number ends before the comma, a
text at its closing quote, a range at its closing bracket, and a part that is absent is written by
a word that begins like none of them.
-/

namespace Worklog.Filter

open Text (PrefixFree)

/-- The name of a part with the colon after it. -/
def nameText (name : String) : List Char :=
  (Json.writeString false name).toList ++ [':']

/-- How a part is written that may be absent. -/
def partText {α : Type} (w : α → List Char) (part : Option α) : List Char :=
  part.elim "null".toList w

/-- How a range is written. -/
def spanText (r : DateRange) : List Char :=
  '\x7b' :: (nameText "start" ++ ((Json.writeString false r.start.iso).toList ++
    ',' :: (nameText "end" ++ ((Json.writeString false r.stop.iso).toList ++ ['\x7d']))))

/-! ## The parts of a key -/

theorem write_ofOption {α : Type} {toJson : α → Json} {w : α → List Char} {depth : Nat}
    (h : ∀ a, (Json.write .compact depth (toJson a)).toList = w a) (part : Option α) :
    (Json.write .compact depth (Json.ofOption toJson part)).toList = partText w part := by
  cases part with
  | none => rw [Json.ofOption, Json.write]; rfl
  | some a => exact h a

theorem write_range (depth : Nat) (r : DateRange) :
    (Json.write .compact depth r.toJson).toList = spanText r := by
  rw [DateRange.toJson, Json.toList_write_object]
  simp only [List.flatMap_cons, List.flatMap_nil, Json.memberText, Json.write, spanText, nameText,
    Json.Style.compact, List.append_assoc, List.cons_append, List.nil_append]

/-- A key, part by part. -/
theorem toList_cacheKey (f : Filter) :
    f.cacheKey.toList =
      '\x7b' :: (nameText "year" ++ (partText (fun n => (toString n).toList) f.year ++
        ',' :: (nameText "month" ++ (partText (fun n => (toString n).toList) f.month ++
        ',' :: (nameText "project_filter" ++
          (partText (fun s => (Json.writeString false s).toList) f.project ++
        ',' :: (nameText "date_range" ++ (partText spanText f.range ++ ['\x7d'])))))))) := by
  have number (depth : Nat) (n : Int) :
      (Json.write .compact depth (.int n)).toList = (toString n).toList := by rw [Json.write]
  have text (depth : Nat) (s : String) :
      (Json.write .compact depth (.string s)).toList = (Json.writeString false s).toList := by
    rw [Json.write]; rfl
  rw [cacheKey, Json.render, toJson, Json.toList_write_object]
  simp only [List.flatMap_cons, List.flatMap_nil, Json.memberText, write_ofOption (number _),
    write_ofOption (text _), write_ofOption (write_range _), nameText, List.append_assoc,
    List.cons_append, List.nil_append]

/-! ## Telling the parts apart -/

theorem partText_injective {α : Type} {w : α → List Char} (hw : Function.Injective w)
    (hn : ∀ a, w a ≠ "null".toList) : Function.Injective (partText w) := by
  intro a b h
  cases a with
  | none =>
    cases b with
    | none => rfl
    | some b => exact absurd h.symm (hn b)
  | some a =>
    cases b with
    | none => exact absurd h (hn a)
    | some b => rw [hw h]

/-- A number that may be absent ends before the comma. -/
theorem prefixFree_number :
    PrefixFree fun n : Option Int => partText (fun n => (toString n).toList) n ++ [','] := by
  refine .ended (partText_injective Json.toList_toString_injective ?_) ?_
  · intro n h
    have letter : 'n' ∉ (toString n).toList :=
      Json.notMem_toList_toString (by decide) (by decide) n
    exact letter (h ▸ by decide)
  · intro n
    cases n with
    | none => decide
    | some n => exact Json.notMem_toList_toString (by decide) (by decide) n

theorem prefixFree_span : PrefixFree spanText := by
  intro a b x y h
  simp only [spanText, List.cons_append, List.append_assoc, List.cons.injEq, true_and] at h
  obtain ⟨hs, h⟩ := Json.prefixFree_writeString (List.append_cancel_left h)
  obtain ⟨ht, h⟩ := Json.prefixFree_writeString (List.append_cancel_left (List.cons.inj h).2)
  refine ⟨?_, (List.cons.inj h).2⟩
  cases a
  cases b
  simp only [DateRange.mk.injEq]
  exact ⟨Date.iso_injective hs, Date.iso_injective ht⟩

theorem prefixFree_text :
    PrefixFree (partText fun s : String => (Json.writeString false s).toList) := by
  refine Json.prefixFree_writeString.optional fun s => ?_
  exact ⟨'"', _, String.toList_ofList, by decide⟩

theorem prefixFree_range : PrefixFree (partText spanText) :=
  prefixFree_span.optional fun _ => ⟨_, _, rfl, by decide⟩

/-- Different filters have different keys. -/
theorem cacheKey_injective : Function.Injective cacheKey := by
  intro f g h
  have h := congrArg String.toList h
  simp only [toList_cacheKey, List.cons.injEq, true_and] at h
  obtain ⟨year, h⟩ := prefixFree_number (by simpa using List.append_cancel_left h)
  obtain ⟨month, h⟩ := prefixFree_number (by simpa using List.append_cancel_left h)
  obtain ⟨project, h⟩ := prefixFree_text (List.append_cancel_left h)
  obtain ⟨range, -⟩ := prefixFree_range (List.append_cancel_left (List.cons.inj h).2)
  cases f
  cases g
  simp only [mk.injEq]
  exact ⟨year, month, project, range⟩

end Worklog.Filter
