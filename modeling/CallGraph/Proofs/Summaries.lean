import CallGraph.Proofs.Coherence
import CallGraph.Proofs.InsertionOrder

/-!
# What a summary counts

A summary takes its fan-in from the lists of calls, and never looks at the lists of callers.  In a
sound table the two list the same pairs, each once, from either end.  So the fan-in of a function is
the length of its list of callers, and both fans add up to the number of calls.
-/

namespace CallGraph

open Relation

/-! ## Tallies -/

theorem get?_tally (texts : List String) (text : String) :
    (tally texts).get? text = if text ∈ texts then some (texts.count text) else none := by
  induction texts using List.reverseRecOn with
  | nil => rfl
  | append_singleton texts last induction =>
      have added : tally (texts ++ [last]) =
          (tally texts).insert last (((tally texts).get? last).getD 0 + 1) := by
        rw [tally, List.foldl_append]
        rfl
      rw [added, KeyMap.get?_insert]
      by_cases isLast : text = last
      · subst isLast
        rw [if_pos rfl, if_pos (List.mem_append_right _ List.mem_cons_self), induction,
          List.count_append, List.count_singleton_self]
        split
        · rfl
        · next absent => rw [List.count_eq_zero_of_not_mem absent, Option.getD_none]
      · have elsewhere : [last].count text = 0 :=
          List.count_eq_zero_of_not_mem fun member => isLast (List.mem_singleton.mp member)
        rw [if_neg isLast, induction, List.count_append, elsewhere, Nat.add_zero]
        simp only [List.mem_append, List.mem_singleton, isLast, or_false]

theorem mem_tally_iff {texts : List String} {text : String} {count : Nat} :
    (text, count) ∈ (tally texts).entries ↔ text ∈ texts ∧ count = texts.count text := by
  rw [← KeyMap.get?_eq_some_iff, get?_tally]
  split
  · next present => simp [present, eq_comm]
  · next absent => simp [absent]

/-- Each text is counted as often as it occurs, so the counts add up to the number of texts. -/
theorem sum_tally (texts : List String) :
    ((tally texts).entries.map Prod.snd).sum = texts.length := by
  have counts : (tally texts).entries.map Prod.snd =
      ((tally texts).entries.map Prod.fst).map fun text => texts.count text := by
    rw [List.map_map]
    exact List.map_congr_left fun entry member => (mem_tally_iff.mp member).2
  have keys : ((tally texts).entries.map Prod.fst).Perm texts.dedup := by
    rw [List.perm_ext_iff_of_nodup (tally texts).distinct texts.nodup_dedup]
    intro text
    rw [List.mem_dedup, List.mem_map]
    constructor
    · rintro ⟨entry, member, rfl⟩
      exact (mem_tally_iff.mp member).1
    · intro present
      exact ⟨_, mem_tally_iff.mpr ⟨present, rfl⟩, rfl⟩
  rw [counts, (keys.map _).sum_eq, List.sum_map_count_dedup_eq_length]

theorem mem_sortedCounts {counts : KeyMap Nat} {entry : Key × Nat} :
    entry ∈ sortedCounts counts ↔ entry ∈ counts.entries :=
  List.mem_mergeSort

theorem sum_sortedCounts_tally (texts : List String) :
    ((sortedCounts (tally texts)).map Prod.snd).sum = texts.length := by
  have sorted := ((tally texts).entries.mergeSort_perm fun left right =>
    decide (left.1 ≤ right.1)).map Prod.snd
  rw [sortedCounts, sorted.sum_eq, sum_tally]

/-! ## Lists in order -/

/-- Lists that start differently are told apart by where they start. -/
theorem lt_of_textsLe_of_disjoint {left right : List String} (filled : left ≠ [])
    (disjoint : left.Disjoint right) (le : textsLe left right = true) : left < right := by
  cases left with
  | nil => exact absurd rfl filled
  | cons first left =>
      cases right with
      | nil => cases le
      | cons second right =>
          rw [textsLe_cons_iff] at le
          rcases le with less | ⟨rfl, -⟩
          · exact List.Lex.rel less
          · exact absurd List.mem_cons_self fun member => disjoint member List.mem_cons_self

/-- A cyclic component in increasing order is a list of nodes with edges, and not empty. -/
theorem Digraph.IsCyclicComponent.inOrder_filled {graph : Digraph} {nodes : List String}
    (component : graph.IsCyclicComponent nodes) :
    Digraph.inOrder nodes ≠ [] ∧ (Digraph.inOrder nodes).Pairwise (· < ·) ∧
      ∀ node ∈ Digraph.inOrder nodes, node ∈ graph.targets.keys := by
  refine ⟨?_, ?_, fun node inside => ?_⟩
  · obtain ⟨node, inside⟩ := component.exists_mem
    exact List.ne_nil_of_mem (List.mem_mergeSort.mpr inside)
  · have distinct := (nodes.mergeSort_perm fun left right => decide (left ≤ right)).nodup_iff.mpr
      component.distinct
    exact (orders_texts.pairwise_mergeSort nodes).imp₂
      (fun _ _ le different => Std.lt_of_le_of_ne (of_decide_eq_true le) different) distinct
  · obtain ⟨_, leads, -⟩ := TransGen.head'_iff.mp (component.cycle (List.mem_mergeSort.mp inside))
    exact Digraph.mem_keys_of_leads leads

/-! ## The edges of a table from both ends -/

namespace Table

variable {table : Table} {field : EdgeField} {key target : Key}

/-- The edges of a field, each as the key it is listed at and the key it leads to. -/
def edgePairs (table : Table) (field : EdgeField) : List (Key × Key) :=
  table.entries.flatMap fun entry => (entry.2.edges field).map fun target => (entry.1, target)

/-- The number of edges that are listed in a field. -/
def edgeCount (table : Table) (field : EdgeField) : Nat :=
  (table.entries.map fun entry => (entry.2.edges field).length).sum

theorem length_edgePairs (table : Table) (field : EdgeField) :
    (table.edgePairs field).length = table.edgeCount field := by
  rw [edgePairs, List.length_flatMap, edgeCount]
  simp only [List.length_map]

theorem mem_edgePairs_iff :
    (key, target) ∈ table.edgePairs field ↔ target ∈ table.edgesOf key field := by
  rw [edgePairs, List.mem_flatMap, mem_edgesOf_iff]
  constructor
  · rintro ⟨entry, listed, member⟩
    obtain ⟨_, edge, same⟩ := List.mem_map.mp member
    cases same
    exact ⟨entry.2, (table.mem_entries_iff _ _).mp listed, edge⟩
  · rintro ⟨record, found, edge⟩
    exact ⟨(key, record), (table.mem_entries_iff key record).mpr found,
      List.mem_map.mpr ⟨target, edge, rfl⟩⟩

theorem Coherent.nodup_edgePairs (coherent : table.Coherent) (field : EdgeField) :
    (table.edgePairs field).Nodup := by
  rw [edgePairs, List.nodup_flatMap]
  constructor
  · rintro ⟨key, record⟩ listed
    have found := (table.mem_entries_iff key record).mp listed
    exact (coherent.distinct key record field found).map fun _ _ same => (Prod.ext_iff.mp same).2
  · refine (List.pairwise_map.mp table.records.distinct).imp fun different => ?_
    rw [Function.onFun, List.disjoint_left]
    intro pair first second
    obtain ⟨_, -, rfl⟩ := List.mem_map.mp first
    obtain ⟨_, -, same⟩ := List.mem_map.mp second
    exact different (Prod.ext_iff.mp same).1.symm

/-- A field and its inverse list the same edges, told from the one end and from the other. -/
theorem edgePairs_inverse_perm (sound : table.isSound = true) (field : EdgeField) :
    (table.edgePairs field.inverse).Perm ((table.edgePairs field).map Prod.swap) := by
  have coherent := coherent_of_isSound sound
  rw [List.perm_ext_iff_of_nodup (coherent.nodup_edgePairs _)
    ((coherent.nodup_edgePairs _).map Prod.swap_injective)]
  rintro ⟨target, key⟩
  rw [List.mem_map_of_involutive Prod.swap_swap, Prod.swap_prod_mk, mem_edgePairs_iff,
    mem_edgePairs_iff, mem_inverse_iff_of_isSound sound, EdgeField.inverse_inverse]

theorem edgeCount_inverse (sound : table.isSound = true) (field : EdgeField) :
    table.edgeCount field.inverse = table.edgeCount field := by
  rw [← length_edgePairs, (edgePairs_inverse_perm sound field).length_eq, List.length_map,
    length_edgePairs]

/-- A key stands at the near end of as many edges as its record lists. -/
theorem count_map_fst_edgePairs (table : Table) (field : EdgeField) (key : Key) :
    ((table.edgePairs field).map Prod.fst).count key = (table.edgesOf key field).length := by
  have distinct := table.records.distinct
  change ((table.records.entries.flatMap fun entry =>
    (entry.2.edges field).map fun target => (entry.1, target)).map Prod.fst).count key =
      (((table.records.entries.lookup key).map (·.edges field)).getD []).length
  generalize table.records.entries = entries at distinct
  induction entries with
  | nil => rfl
  | cons entry entries induction =>
      rw [List.map_cons, List.nodup_cons] at distinct
      have own : (((entry.2.edges field).map fun target => (entry.1, target)).map Prod.fst).count
          key = if entry.1 = key then (entry.2.edges field).length else 0 := by
        simp [Function.comp_def, List.count_replicate]
      rw [List.flatMap_cons, List.map_append, List.count_append, own, induction distinct.2,
        List.lookup_cons]
      by_cases same : key = entry.1
      · subst same
        have absent : entries.lookup entry.1 = none :=
          List.lookup_eq_none_iff.mpr fun other listed => by
            rw [bne_iff_ne]
            exact fun same => distinct.1 (same ▸ List.mem_map_of_mem listed)
        simp [absent]
      · rw [if_neg (Ne.symm same), Nat.zero_add, show (key == entry.1) = false by simpa using same]

/-- A key stands at the far end of as many edges as its record lists in the inverse field. -/
theorem count_map_snd_edgePairs (sound : table.isSound = true) (field : EdgeField) (key : Key) :
    ((table.edgePairs field).map Prod.snd).count key =
      (table.edgesOf key field.inverse).length := by
  have ends := (edgePairs_inverse_perm sound field).map Prod.fst
  rw [List.map_map] at ends
  rw [← count_map_fst_edgePairs, ends.count_eq]
  rfl

theorem callEdges_perm (table : Table) : table.callEdges.Perm (table.edgePairs .calls) :=
  List.mergeSort_perm _ _

/-! ## Fan-in and fan-out -/

/-- Counts that give each key whose record lists edges in a field their number, and nothing else,
in increasing order of the keys. -/
structure CountsEdges (table : Table) (field : EdgeField) (counts : List (Key × Nat)) : Prop where
  /-- The keys come in increasing order. -/
  ordered : (counts.map Prod.fst).Pairwise (· < ·)
  /-- The keys are those with edges, and each is given their number. -/
  exact : ∀ key count, (key, count) ∈ counts ↔
    ∃ record, table.get? key = some record ∧ record.edges field ≠ [] ∧
      count = (record.edges field).length

/-- A tally of ends is the count of edges as soon as each key is such an end as often as its record
lists edges. -/
theorem countsEdges_tally {ends : List Key}
    (counted : ∀ key, ends.count key = (table.edgesOf key field).length) :
    table.CountsEdges field (sortedCounts (tally ends)) where
  ordered := pairwise_lt_mergeSort_first (tally ends).distinct
  exact key count := by
    rw [mem_sortedCounts, mem_tally_iff, counted, ← List.count_pos_iff, counted, edgesOf]
    cases table.get? key with
    | none => simp
    | some record => simp [List.length_pos_iff]

theorem countsEdges_fanIn (sound : table.isSound = true) (top : Int) :
    table.CountsEdges .calledBy (table.summary top).fanIn := by
  refine countsEdges_tally fun key => ?_
  rw [(table.callEdges_perm.map Prod.snd).count_eq]
  exact count_map_snd_edgePairs sound .calls key

theorem countsEdges_fanOut (table : Table) (top : Int) :
    table.CountsEdges .calls (table.summary top).fanOut := by
  refine countsEdges_tally fun key => ?_
  rw [(table.callEdges_perm.map Prod.fst).count_eq]
  exact table.count_map_fst_edgePairs .calls key

theorem sum_fanIn (table : Table) (top : Int) :
    ((table.summary top).fanIn.map Prod.snd).sum = (table.summary top).callEdgeCount := by
  change ((sortedCounts (tally (table.callEdges.map Prod.snd))).map Prod.snd).sum =
    table.callEdges.length
  rw [sum_sortedCounts_tally, List.length_map]

theorem sum_fanOut (table : Table) (top : Int) :
    ((table.summary top).fanOut.map Prod.snd).sum = (table.summary top).callEdgeCount := by
  change ((sortedCounts (tally (table.callEdges.map Prod.fst))).map Prod.snd).sum =
    table.callEdges.length
  rw [sum_sortedCounts_tally, List.length_map]

/-! ## Counts of records -/

theorem size_eq_count_add_count (table : Table) (test : Record → Bool) :
    table.size = table.count test + table.count fun record => !test record := by
  rw [size, KeyMap.size, List.length_eq_countP_add_countP fun entry => test entry.2]
  simp only [Bool.not_eq_true, Bool.decide_eq_false]
  rfl

theorem Coherent.size_eq_functions_add_variables (coherent : table.Coherent) :
    table.size = table.count (fun record => record.kind == some .function) +
      table.count fun record => record.kind == some .object := by
  rw [table.size_eq_count_add_count fun record => record.kind == some .function]
  congr 1
  refine List.countP_congr ?_
  rintro ⟨key, record⟩ listed
  obtain ⟨kind, given⟩ := coherent.typed key record ((table.mem_entries_iff key record).mp listed)
  dsimp only
  rw [given]
  cases kind <;> decide

/-! ## Cycles -/

/-- The components of a table come in increasing order, each in increasing order and filled with
keys of the table, and no two share a key. -/
theorem cycles_exact (table : Table) (top : Int) :
    (table.summary top).cycles.Pairwise (fun left right => left < right ∧ left.Disjoint right) ∧
      ∀ cycle ∈ (table.summary top).cycles,
        cycle ≠ [] ∧ cycle.Pairwise (· < ·) ∧ ∀ key ∈ cycle, key ∈ table.keys := by
  obtain ⟨found, answer, sound, -, apart⟩ := table.forwardGraph.exists_found
  have result : (table.summary top).cycles = (found.map Digraph.inOrder).mergeSort textsLe := by
    simp only [summary, Digraph.cyclicComponents, answer]
    rfl
  have perm : (table.summary top).cycles.Perm (found.map Digraph.inOrder) :=
    result ▸ List.mergeSort_perm _ _
  have each : ∀ cycle ∈ (table.summary top).cycles,
      cycle ≠ [] ∧ cycle.Pairwise (· < ·) ∧ ∀ key ∈ cycle, key ∈ table.keys := by
    intro cycle listed
    obtain ⟨nodes, member, rfl⟩ := List.mem_map.mp (perm.mem_iff.mp listed)
    have filled := (sound nodes member).inOrder_filled
    rwa [forwardGraph, KeyMap.keys_mapValues] at filled
  have disjoint : (table.summary top).cycles.Pairwise List.Disjoint := by
    rw [perm.pairwise_iff List.Disjoint.symm, List.pairwise_map]
    refine apart.imp fun shared => ?_
    intro key left right
    exact shared (List.mem_mergeSort.mp left) (List.mem_mergeSort.mp right)
  have ordered : (table.summary top).cycles.Pairwise fun left right =>
      textsLe left right = true :=
    result ▸ orders_textsLe.pairwise_mergeSort _
  refine ⟨(ordered.and disjoint).imp_of_mem ?_, each⟩
  rintro left right listed - ⟨le, shared⟩
  exact ⟨lt_of_textsLe_of_disjoint (each left listed).1 shared le, shared⟩

/-! ## The most called functions -/

/-- The order of functions by their fan-in: a function with more calls comes first, and of two with
equally many the one with the lesser key. -/
theorem orders_fanIn : Orders fun left right : Key × Nat =>
    decide (right.2 < left.2) || (left.2 == right.2 && decide (left.1 ≤ right.1)) := by
  constructor
  · intro first second third
    simp only [Bool.or_eq_true, Bool.and_eq_true, decide_eq_true_eq, beq_iff_eq]
    rintro (more | ⟨same, le⟩) (moreNext | ⟨sameNext, leNext⟩)
    · exact .inl (by omega)
    · exact .inl (by omega)
    · exact .inl (by omega)
    · exact .inr ⟨same.trans sameNext, String.le_trans le leNext⟩
  · intro left right
    simp only [Bool.or_eq_true, Bool.and_eq_true, decide_eq_true_eq, beq_iff_eq]
    rcases Nat.lt_trichotomy left.2 right.2 with less | same | more
    · exact .inr (.inl less)
    · exact (String.le_total left.1 right.1).imp (fun le => .inr ⟨same, le⟩)
        fun ge => .inr ⟨same.symm, ge⟩
    · exact .inl (.inl more)

/-- The called functions, most often called first. -/
structure RanksFunctions (table : Table) (ranking : List Key) : Prop where
  /-- The ranking lists the functions that are called. -/
  exact : ∀ key, key ∈ ranking ↔ ∃ record, table.get? key = some record ∧
    record.kind = some .function ∧ record.calledBy ≠ []
  /-- A function with more calls comes first, and of two with equally many the one with the lesser
  key. -/
  ordered : ranking.Pairwise fun left right =>
    (table.edgesOf right .calledBy).length < (table.edgesOf left .calledBy).length ∨
      (table.edgesOf left .calledBy).length = (table.edgesOf right .calledBy).length ∧ left < right

theorem isFunction_iff :
    table.isFunction key = true ↔
      ∃ record, table.get? key = some record ∧ record.kind = some .function := by
  rw [isFunction]
  cases table.get? key <;> simp

theorem ranksFunctions_functionsByFanIn {fanIn : KeyMap Nat}
    (counted : table.CountsEdges .calledBy (sortedCounts fanIn)) :
    table.RanksFunctions (table.functionsByFanIn fanIn) where
  exact key := by
    rw [functionsByFanIn, List.mem_map]
    constructor
    · rintro ⟨⟨_, count⟩, listed, rfl⟩
      obtain ⟨entry, isFunction⟩ := List.mem_filter.mp (List.mem_mergeSort.mp listed)
      obtain ⟨record, found, called, -⟩ := (counted.exact _ _).mp (mem_sortedCounts.mpr entry)
      obtain ⟨_, same, kind⟩ := isFunction_iff.mp isFunction
      cases found.symm.trans same
      exact ⟨record, found, kind, called⟩
    · rintro ⟨record, found, kind, called⟩
      refine ⟨(key, record.calledBy.length), List.mem_mergeSort.mpr (List.mem_filter.mpr ⟨?_, ?_⟩),
        rfl⟩
      · exact mem_sortedCounts.mp ((counted.exact _ _).mpr ⟨record, found, called, rfl⟩)
      · exact isFunction_iff.mpr ⟨record, found, kind⟩
  ordered := by
    have distinct (le : Key × Nat → Key × Nat → Bool) :
        (((fanIn.entries.filter fun entry => table.isFunction entry.1).mergeSort le).map
          Prod.fst).Nodup :=
      ((List.mergeSort_perm _ le).map Prod.fst).nodup_iff.mpr
        (fanIn.distinct.sublist (List.filter_sublist.map Prod.fst))
    have count : ∀ entry ∈ fanIn.entries.filter fun entry => table.isFunction entry.1,
        entry.2 = (table.edgesOf entry.1 .calledBy).length := by
      rintro ⟨key, number⟩ member
      obtain ⟨record, found, -, same⟩ :=
        (counted.exact key number).mp (mem_sortedCounts.mpr (List.mem_filter.mp member).1)
      rw [same, edgesOf_eq found]
    rw [functionsByFanIn, List.pairwise_map]
    refine ((orders_fanIn.pairwise_mergeSort _).and
      (List.pairwise_map.mp (distinct _))).imp_of_mem ?_
    rintro left right first second ⟨le, different⟩
    rw [← count left (List.mem_mergeSort.mp first), ← count right (List.mem_mergeSort.mp second)]
    simp only [Bool.or_eq_true, Bool.and_eq_true, decide_eq_true_eq, beq_iff_eq] at le
    rcases le with more | ⟨same, le⟩
    · exact .inl more
    · exact .inr ⟨same, Std.lt_of_le_of_ne le different⟩

/-! ## The summary -/

/-- A summary whose counts, maps and lists are those of a table, with as many of the most called
functions as are asked for. -/
structure SummarizedBy (table : Table) (top : Nat) (summary : Summary) : Prop where
  /-- The fan-in of a key is the length of its list of callers. -/
  fanIn : table.CountsEdges .calledBy summary.fanIn
  /-- The fan-out of a key is the length of its list of calls. -/
  fanOut : table.CountsEdges .calls summary.fanOut
  /-- Each call is counted at its callee. -/
  sumFanIn : (summary.fanIn.map Prod.snd).sum = summary.callEdgeCount
  /-- Each call is counted at its caller. -/
  sumFanOut : (summary.fanOut.map Prod.snd).sum = summary.callEdgeCount
  /-- The references are counted where they are listed as such. -/
  references : summary.referenceEdgeCount = table.edgeCount .references
  /-- There are as many references as converse ones. -/
  referring : summary.referenceEdgeCount = table.edgeCount .referring
  /-- Each symbol is a function or a variable. -/
  kinds : summary.symbolCount = summary.functionCount + summary.variableCount
  /-- Each symbol is public or private. -/
  visibilities : summary.symbolCount = summary.publicCount + summary.privateCount
  /-- The cycles come in increasing order and share no key. -/
  cycles : summary.cycles.Pairwise fun left right => left < right ∧ left.Disjoint right
  /-- Each cycle is filled with keys of the table in increasing order. -/
  eachCycle : ∀ cycle ∈ summary.cycles,
    cycle ≠ [] ∧ cycle.Pairwise (· < ·) ∧ ∀ key ∈ cycle, key ∈ table.keys
  /-- The most called functions head the ranking of all called functions. -/
  topFunctions : ∃ ranking, table.RanksFunctions ranking ∧ summary.topFunctions = ranking.take top

/-- The summary of a sound table agrees with the records of the table from both ends of each edge,
however many functions it is to name. -/
theorem summarizedBy_summary (sound : table.isSound = true) (top : Int)
    (natural : 0 ≤ top) : table.SummarizedBy top.toNat (table.summary top) := by
  have fanIn := table.countsEdges_fanIn sound top
  have references : (table.summary top).referenceEdgeCount = table.edgeCount .references := by
    change (table.entries.flatMap fun entry => entry.2.references).length = _
    rw [List.length_flatMap]
    rfl
  refine
    { fanIn := fanIn
      fanOut := table.countsEdges_fanOut top
      sumFanIn := table.sum_fanIn top
      sumFanOut := table.sum_fanOut top
      references := references
      referring := references.trans (edgeCount_inverse sound .references).symm
      kinds := (coherent_of_isSound sound).size_eq_functions_add_variables
      visibilities := table.size_eq_count_add_count (·.visibility == some .exported)
      cycles := (table.cycles_exact top).1
      eachCycle := (table.cycles_exact top).2
      topFunctions := ⟨_, ranksFunctions_functionsByFanIn fanIn, ?_⟩ }
  change takeUpTo top _ = _
  rw [takeUpTo, if_neg (Int.not_lt.mpr natural)]

/-- Two functions that are called twice, the one of them by itself, and a variable. -/
def loggingTable : Table :=
  ofRecords
    [("main", { name := "main", kind := some .function, calls := ["walk", "log"] }),
      ("walk", { name := "walk", kind := some .function, calls := ["log", "walk"],
                 calledBy := ["main", "walk"] }),
      ("log", { name := "log", kind := some .function, references := ["level"],
                calledBy := ["walk", "main"] }),
      ("level", { name := "level", kind := some .object, referring := ["log"] })]

/-- Of the two functions with the same fan-in the one with the lesser key comes first. -/
theorem summarizedBy_loggingTable :
    loggingTable.isSound = true ∧ loggingTable.SummarizedBy 1 (loggingTable.summary 1) ∧
      (loggingTable.summary 1).fanIn = [("log", 2), ("walk", 2)] ∧
      (loggingTable.summary 1).fanOut = [("main", 2), ("walk", 2)] ∧
      (loggingTable.summary 1).topFunctions = ["log"] := by
  have sound : loggingTable.isSound = true := by cbv
  have edges : loggingTable.callEdges =
      [("main", "log"), ("main", "walk"), ("walk", "log"), ("walk", "walk")] := by cbv
  have fanIn : (loggingTable.summary 1).fanIn = [("log", 2), ("walk", 2)] := by
    change sortedCounts (fanStats loggingTable.callEdges).1 = _
    rw [edges]
    cbv
  have fanOut : (loggingTable.summary 1).fanOut = [("main", 2), ("walk", 2)] := by
    change sortedCounts (fanStats loggingTable.callEdges).2 = _
    rw [edges]
    cbv
  have first : (loggingTable.summary 1).topFunctions = ["log"] := by
    change takeUpTo 1 (loggingTable.functionsByFanIn (fanStats loggingTable.callEdges).1) = _
    rw [edges]
    cbv
  exact ⟨sound, summarizedBy_summary sound 1 (by decide), fanIn, fanOut, first⟩

end Table

end CallGraph
