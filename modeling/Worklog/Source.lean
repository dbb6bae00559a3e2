import Worklog.Filter

/-!
# Sources of entries

A source holds entries and answers filters. It keeps each answer under the filter's key, and goes
on giving it, even after entries have been added, until the kept answers are cleared. It counts
how often it had to look at its entries.
-/

namespace Worklog

/-- Entries, and the answers that are kept under the keys of filters. -/
structure Source where
  entries : List Entry
  kept : List (String × List Entry) := []
  /-- How often no answer was kept. -/
  lookups : Nat := 0

namespace Source

/-- A source of entries, with no answers kept. -/
def ofEntries (entries : List Entry) : Source := { entries }

/-- The answer that is kept for a filter. -/
def kept? (s : Source) (f : Filter) : Option (List Entry) :=
  s.kept.lookup f.cacheKey

/-- The entries that a filter admits, or admitted when it was first asked. -/
def query (s : Source) (f : Filter) : List Entry × Source :=
  match s.kept? f with
  | some answer => (answer, s)
  | none =>
    let answer := s.entries.filter f.admits
    (answer, { s with kept := (f.cacheKey, answer) :: s.kept, lookups := s.lookups + 1 })

/-- The source with one more entry; kept answers do not change. -/
def add (s : Source) (e : Entry) : Source :=
  { s with entries := s.entries ++ [e] }

/-- The source with no answers kept. -/
def clear (s : Source) : Source :=
  { s with kept := [] }

end Source

end Worklog
