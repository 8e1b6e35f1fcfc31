import CallGraph.Proofs.Search.Path
import CallGraph.Proofs.Violation
import Mathlib

/-!
# Searching back

In a sound table every edge is kept at both of its ends, so a path from one function to another is,
read from its end, a path of the opposite direction.  As a search misses no path, it finds one
exactly if the search back does, although the two follow other fields in another order and start
from other functions.
-/

namespace CallGraph

/-- The other way to follow the edges. -/
def Direction.opposite : Direction → Direction
  | forward => backward
  | backward => forward

theorem Direction.inverse_mem_fields_opposite {direction : Direction} {field : EdgeField}
    (followed : field ∈ direction.fields) : field.inverse ∈ direction.opposite.fields := by
  cases direction <;> cases field <;> simp_all [fields, opposite, EdgeField.inverse]

/-- Ask for a path between functions with accepted names. -/
def Query.between (direction : Direction) (start finish : String → Bool) (ignore : List String)
    (ignoresName : String → Bool) : Query :=
  { start, goal := .function finish, direction, ignore, ignoresName }

namespace Table

variable {table : Table} {direction : Direction} {key next : Key}

/-- Every edge of a sound table is followed by both directions. -/
theorem leads_opposite (sound : table.isSound = true) (leads : table.Leads direction key next) :
    table.Leads direction.opposite next key := by
  obtain ⟨field, followed, edge⟩ := leads
  obtain ⟨record, found, listed⟩ := mem_edgesOf_iff.mp edge
  obtain ⟨stored, present, answers⟩ := answered_of_isSound sound found listed
  exact ⟨field.inverse, Direction.inverse_mem_fields_opposite followed,
    mem_edgesOf_iff.mpr ⟨stored, present, answers⟩⟩

theorem closedUnder_of_isSound (sound : table.isSound = true) (direction : Direction) :
    table.ClosedUnder direction := by
  intro key next leads
  obtain ⟨field, -, edge⟩ := leads_opposite sound leads
  exact contains_of_mem_edgesOf edge

end Table

section Paths

variable {table : Table} {direction : Direction} {start finish : String → Bool}
  {ignore : List String} {ignoresName : String → Bool} {first : Key} {keys : List Key}

/-- A path from functions that are not ignored is, read from its end, a path back. -/
theorem IsPath.reverse (sound : table.isSound = true)
    (path : IsPath table (.between direction start finish ignore ignoresName) finish first keys)
    (passes : ∀ key record, table.get? key = some record →
      record.isFunctionNamed start = true →
      (ignore.contains key || ignoresName record.name) = false) :
    ∃ last, IsPath table (.between direction.opposite finish start ignore ignoresName) start last
      keys.reverse := by
  obtain ⟨last, isLast, arrives⟩ := path.arrives
  refine ⟨last, ?_, arrives, ⟨first, ?_, path.starts⟩, ?_, ?_, ?_⟩
  · rw [List.head?_reverse, isLast]
  · rw [List.getLast?_reverse, path.head]
  · rw [List.isChain_reverse]
    exact path.chain.imp fun _ _ leads => Table.leads_opposite sound leads
  · rw [List.nodup_reverse]
    exact path.distinct
  · intro key member record found
    obtain ⟨others, rfl⟩ := List.head?_eq_some_iff.mp path.head
    rcases List.mem_cons.mp (List.mem_reverse.mp (List.mem_of_mem_tail member)) with rfl | later
    · obtain ⟨stored, present, accepted⟩ := path.starts
      cases found.symm.trans present
      exact passes key record found accepted
    · exact path.passes key later record found

/-- A search for a function in a closed table returns, and it returns a path iff there is one. -/
theorem Table.exists_search_iff {query : Query} (sought : query.goal = .function finish)
    (closed : table.ClosedUnder query.direction) :
    ∃ keys, (table.search query).keys = .ok keys ∧
      (keys ≠ [] ↔ ∃ first path, IsPath table query finish first path) := by
  have concluded := @Search.concluded_fromCandidates table query finish
    { dead := query.ignoredKeys table } (query.candidates table) Search.settled_ignoredKeys rfl rfl
    sought closed fun start member => Query.mem_candidates_iff.mp member
  cases result : Search.fromCandidates table query (query.candidates table)
      { dead := query.ignoredKeys table } with
  | mk final outcome =>
      rw [result] at concluded
      rcases concluded with ⟨_, first, _, _, rfl, path, -⟩ | ⟨rfl, none⟩
      · refine ⟨final.found, by simp only [Table.search, result],
          fun _ => ⟨first, final.found, path⟩, ?_⟩
        rintro - empty
        simpa [empty] using path.head
      · refine ⟨[], by simp only [Table.search, result], fun some => absurd rfl some, ?_⟩
        rintro ⟨first, path, isPath⟩
        exact absurd isPath (none first (Query.mem_candidates_iff.mpr isPath.starts) path)

end Paths

/-- In a sound table a search for a path and the search back both return, and one of them finds a
path iff the other does, provided that no function which may start or end one is ignored. -/
theorem Table.search_forward_iff_backward {table : Table} (sound : table.isSound = true)
    {start finish : String → Bool} {ignore : List String} {ignoresName : String → Bool}
    (passes : ∀ key record, table.get? key = some record →
      record.isFunctionNamed start = true ∨ record.isFunctionNamed finish = true →
      (ignore.contains key || ignoresName record.name) = false) :
    ∃ there back,
      (table.search (.between .forward start finish ignore ignoresName)).keys = .ok there ∧
      (table.search (.between .backward finish start ignore ignoresName)).keys = .ok back ∧
      (there ≠ [] ↔ back ≠ []) := by
  obtain ⟨there, answer, found⟩ :=
    @exists_search_iff table finish (.between .forward start finish ignore ignoresName) rfl
      (closedUnder_of_isSound sound .forward)
  obtain ⟨back, answerBack, foundBack⟩ :=
    @exists_search_iff table start (.between .backward finish start ignore ignoresName) rfl
      (closedUnder_of_isSound sound .backward)
  refine ⟨there, back, answer, answerBack, ?_⟩
  rw [found, foundBack]
  constructor
  · rintro ⟨key, keys, path⟩
    obtain ⟨last, pathBack⟩ := path.reverse sound fun key record present accepted =>
      passes key record present (.inl accepted)
    exact ⟨last, _, pathBack⟩
  · rintro ⟨key, keys, path⟩
    obtain ⟨last, pathBack⟩ := path.reverse sound fun key record present accepted =>
      passes key record present (.inr accepted)
    exact ⟨last, _, pathBack⟩

/-- A function that reaches another in two ways, by a call through the one and by a reference
through the other. -/
def twoWays : Table :=
  .ofRecords
    [("f", { name := "f", kind := some .function, calls := ["a", "b"] }),
      ("a", { name := "a", kind := some .function, calls := ["h"], calledBy := ["f"] }),
      ("b", { name := "b", kind := some .object, references := ["h"], calledBy := ["f"] }),
      ("h", { name := "h", kind := some .function, calledBy := ["a"], referring := ["b"] })]

/-- With one of the two ways ignored, the other is found and so is a way back. -/
theorem search_forward_iff_backward_twoWays :
    twoWays.isSound = true ∧
      (twoWays.search (.between .forward (· == "f") (· == "h") ["a"] fun _ => false)).keys =
        .ok ["f", "b", "h"] ∧
      ∃ back,
        (twoWays.search (.between .backward (· == "h") (· == "f") ["a"] fun _ => false)).keys =
          .ok back ∧ back ≠ [] := by
  have sound : twoWays.isSound = true := by decide +kernel
  have answer : (twoWays.search
      (.between .forward (· == "f") (· == "h") ["a"] fun _ => false)).keys =
        .ok ["f", "b", "h"] := by cbv
  have spared : ∀ entry ∈ twoWays.entries,
      entry.2.isFunctionNamed (· == "f") = true ∨ entry.2.isFunctionNamed (· == "h") = true →
      (["a"].contains entry.1 || false) = false := by decide +kernel
  obtain ⟨there, back, found, foundBack, both⟩ :=
    @Table.search_forward_iff_backward twoWays sound (· == "f") (· == "h") ["a"] (fun _ => false)
      fun key record present => spared (key, record) ((twoWays.mem_entries_iff _ _).mpr present)
  cases answer.symm.trans found
  exact ⟨sound, answer, back, foundBack, both.mp (by simp)⟩

end CallGraph
