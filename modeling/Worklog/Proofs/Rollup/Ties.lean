import Mathlib.Data.List.Forall2
import Worklog.Proofs.Entry.Ties
import Worklog.Report

/-!
# Rollups of tied entries

Rollups see the days of entries and sums over them. So they are the same for lists that are tied
entry by entry (`Month.ofEntries_congr`, `Summary.ofEntries_congr`).
-/

namespace Worklog

open Decimal

/-- Whether two lists are tied entry by entry. -/
abbrev TiedAll : List Entry → List Entry → Prop :=
  List.Forall₂ Entry.Tied

theorem tiedAll_of_map_sortKey_eq {as bs : List Entry} (ha : ∀ e ∈ as, e.HasRate)
    (hb : ∀ e ∈ bs, e.HasRate) (h : as.map Entry.sortKey = bs.map Entry.sortKey) :
    TiedAll as bs := by
  induction as generalizing bs with
  | nil =>
    rw [List.map_eq_nil_iff.1 h.symm]
    exact .nil
  | cons a as ih =>
    obtain ⟨b, bs, rfl, hkey, hkeys⟩ := List.map_eq_cons_iff.1 h.symm
    rw [List.forall_mem_cons] at ha hb
    exact .cons (Entry.tied_of_sortKey_eq ha.1 hb.1 hkey.symm) (ih ha.2 hb.2 hkeys.symm)

variable {as bs : List Entry} (h : TiedAll as bs)
include h

theorem totalHours_congr : totalHours as = totalHours bs :=
  total_congr (List.rel_map (fun _ _ tied => tied.hours_alike) h)

theorem totalInvoiced_congr : totalInvoiced as = totalInvoiced bs :=
  total_congr (List.rel_map (fun _ _ tied => tied.invoiced_alike) h)

/-- Entries chosen by their days stay tied. -/
theorem TiedAll.filter (p : Date → Bool) :
    TiedAll (as.filter fun e => p e.date) (bs.filter fun e => p e.date) := by
  refine List.rel_filter (fun a b tied => ?_) h
  change p a.date = true ↔ p b.date = true
  rw [tied.date_eq]

theorem inMonth_congr (k : MonthKey) : TiedAll (inMonth k as) (inMonth k bs) :=
  TiedAll.filter h fun d => MonthKey.ofDate d = k

theorem MonthKey.ofEntries_congr : ofEntries as = ofEntries bs := by
  have days : as.map Entry.date = bs.map Entry.date := by
    rw [← List.forall₂_eq_eq_eq]
    exact List.rel_map (fun _ _ tied => tied.date_eq) h
  have months := congrArg (List.map MonthKey.ofDate) days
  rw [List.map_map, List.map_map] at months
  exact congrArg List.eraseDups months

theorem Month.accumulate_congr (settings : Settings) (keys : List MonthKey) (before : Float) :
    accumulate settings as before keys = accumulate settings bs before keys := by
  induction keys generalizing before with
  | nil => rfl
  | cons k keys ih =>
    have hours := totalHours_congr (inMonth_congr h k)
    have invoiced := totalInvoiced_congr (inMonth_congr h k)
    simp only [accumulate, ofBucket, hours, invoiced, ih]

theorem Month.ofEntries_congr (settings : Settings) :
    ofEntries settings as = ofEntries settings bs := by
  rw [ofEntries, ofEntries, MonthKey.ofEntries_congr h, accumulate_congr h]

theorem Summary.ofEntries_congr (settings : Settings) :
    ofEntries settings as = ofEntries settings bs := by
  simp only [ofEntries, totalHours_congr h, totalInvoiced_congr h, MonthKey.setOfEntries,
    MonthKey.ofEntries_congr h]

end Worklog
