import CallGraph.Proofs.Trees.Growing
import CallGraph.Tree.RealPath
import Mathlib.Data.Finset.Card

/-!
# Real paths are where paths lead

The real path of a path that leads somewhere is the place it leads to.  A path leads somewhere
along its names and those of the links it meets, in a number of steps.  A link that is being
followed is not met again on the way, because it would take more steps than are left; so there are
never more links inside one another than there are entries, and none leads back to itself.
-/

namespace CallGraph.Tree

variable {tree after : Tree} {links steps more depth : Nat} {place spot middle other : Place}
  {entry : Entry} {name : String} {names rest : List String} {path target : Path}
  {known later : LinkMap} {follow : Following} {added : List (Place × Entry)}

/-- Where the names of a link are followed from that stands in a directory. -/
def startOf (target : Path) (place : Place) : Place :=
  if target.isAbsolute then [] else place

/-- Names lead from one place to another in a number of steps.  It does not matter what stands on
the way, apart from links. -/
inductive Leads (tree : Tree) : Nat → Place → List String → Place → Prop where
  /-- No names lead nowhere else. -/
  | here (place : Place) : tree.Leads 0 place [] place
  /-- Two dots lead to the directory above. -/
  | up {steps : Nat} {place spot : Place} {names : List String}
      (onward : tree.Leads steps place.dropLast names spot) :
      tree.Leads (steps + 1) place (".." :: names) spot
  /-- A link is followed first. -/
  | link {steps more : Nat} {place middle spot : Place} {name : String} {names : List String}
      {target : Path} (notUp : name ≠ "..") (isName : isName name = true)
      (isLink : tree.get? (place ++ [name]) = some (.link target))
      (followed : tree.Leads steps (startOf target place) target.names middle)
      (onward : tree.Leads more middle names spot) :
      tree.Leads (steps + more + 1) place (name :: names) spot
  /-- Any other name is gone along. -/
  | along {steps : Nat} {place spot : Place} {name : String} {names : List String}
      (notUp : name ≠ "..") (isName : isName name = true)
      (noLink : ∀ target, tree.get? (place ++ [name]) ≠ some (.link target))
      (onward : tree.Leads steps (place ++ [name]) names spot) :
      tree.Leads (steps + 1) place (name :: names) spot

namespace Leads

/-- Names lead to one place only, and in one number of steps. -/
theorem unique (leads : tree.Leads steps place names spot) :
    ∀ {more other}, tree.Leads more place names other → steps = more ∧ spot = other := by
  induction leads with
  | here place =>
      intro more other again
      cases again
      exact ⟨rfl, rfl⟩
  | up onward induction =>
      intro more other again
      cases again with
      | up again =>
          obtain ⟨rfl, rfl⟩ := induction again
          exact ⟨rfl, rfl⟩
      | link notUp => exact absurd rfl notUp
      | along notUp => exact absurd rfl notUp
  | link notUp isName isLink followed onward followedInduction onwardInduction =>
      intro more other again
      cases again with
      | up => exact absurd rfl notUp
      | link _ _ isLinkAgain followedAgain onwardAgain =>
          cases isLink.symm.trans isLinkAgain
          obtain ⟨rfl, rfl⟩ := followedInduction followedAgain
          obtain ⟨rfl, rfl⟩ := onwardInduction onwardAgain
          exact ⟨rfl, rfl⟩
      | along _ _ noLink => exact absurd isLink (noLink _)
  | along notUp isName noLink onward induction =>
      intro more other again
      cases again with
      | up => exact absurd rfl notUp
      | link _ _ isLink => exact absurd isLink (noLink _)
      | along _ _ _ again =>
          obtain ⟨rfl, rfl⟩ := induction again
          exact ⟨rfl, rfl⟩

/-- Names lead on from where those before them lead. -/
theorem exists_of_append (leads : tree.Leads steps place (names ++ rest) spot) :
    ∃ front middle back,
      tree.Leads front place names middle ∧ tree.Leads back middle rest spot := by
  induction names generalizing steps place with
  | nil => exact ⟨_, _, _, .here place, leads⟩
  | cons name names induction =>
      cases leads with
      | up onward =>
          obtain ⟨_, _, _, first, second⟩ := induction onward
          exact ⟨_, _, _, .up first, second⟩
      | link notUp isName isLink followed onward =>
          obtain ⟨_, _, _, first, second⟩ := induction onward
          exact ⟨_, _, _, .link notUp isName isLink followed first, second⟩
      | along notUp isName noLink onward =>
          obtain ⟨_, _, _, first, second⟩ := induction onward
          exact ⟨_, _, _, .along notUp isName noLink first, second⟩

/-- Only links matter. -/
theorem of_links (same : ∀ place target, tree.get? place = some (.link target) ↔
    after.get? place = some (.link target)) (leads : after.Leads steps place names spot) :
    tree.Leads steps place names spot := by
  induction leads with
  | here place => exact .here place
  | up _ induction => exact .up induction
  | link notUp isName isLink _ _ followed onward =>
      exact .link notUp isName ((same _ _).mpr isLink) followed onward
  | along notUp isName noLink _ induction =>
      exact .along notUp isName (fun target isLink => noLink target ((same _ _).mp isLink))
        induction

end Leads

/-! ## Walks lead -/

/-- What a stride along names says of where the names lead. -/
def Stride.Shows (tree : Tree) (place : Place) (names : List String) : Stride → Prop
  | .arrived spot => ∃ steps, tree.Leads steps place names spot
  | .turned next others => (∀ name ∈ others, isName name = true) ∧
      ∀ more spot, tree.Leads more next others spot → ∃ steps, tree.Leads steps place names spot
  | .stopped _ => True

/-- If names lead wherever other ones lead, what is shown of the others is shown of them. -/
theorem Stride.Shows.imp {stride : Stride} (shows : stride.Shows tree middle rest)
    (leadsOn : ∀ steps spot, tree.Leads steps middle rest spot →
      ∃ more, tree.Leads more place names spot) : stride.Shows tree place names := by
  cases stride with
  | arrived spot =>
      obtain ⟨steps, leads⟩ := shows
      exact leadsOn steps spot leads
  | turned next others =>
      refine ⟨shows.1, fun more spot leads => ?_⟩
      obtain ⟨steps, leads⟩ := shows.2 more spot leads
      exact leadsOn steps spot leads
  | stopped error => trivial

theorem shows_stride (wellFormed : tree.WellFormed) (named : ∀ name ∈ names, isName name = true) :
    (tree.stride .strict place names).Shows tree place names := by
  fun_induction stride tree .strict place names with
  | case1 place => exact ⟨_, .here place⟩
  | case2 => trivial
  | case3 place names directory induction =>
      rw [List.forall_mem_cons] at named
      exact (induction named.2).imp fun steps spot leads => ⟨_, .up leads⟩
  | case4 => trivial
  | case5 place name names directory notUp short target isLink =>
      rw [List.forall_mem_cons] at named
      have targets := wellFormed.linked _ target
        (wellFormed.mem_entries_iff.mpr ⟨by simp, isLink⟩)
      refine ⟨fun other member => ?_, fun more spot leads => ?_⟩
      · rcases List.mem_append.mp member with inTarget | after
        · exact targets other inTarget
        · exact named.2 other after
      · obtain ⟨_, _, _, followed, onward⟩ := leads.exists_of_append
        exact ⟨_, .link notUp named.1 isLink followed onward⟩
  | case6 place name names directory notUp short other notLink stands induction =>
      rw [List.forall_mem_cons] at named
      refine (induction named.2).imp fun steps spot leads => ⟨_, .along notUp named.1 ?_ leads⟩
      intro target isLink
      exact notLink target (Option.some.inj (stands.symm.trans isLink))
  | case7 place name names directory notUp short absent last => cases last.1
  | case8 => trivial

theorem exists_leads_of_walkFrom (wellFormed : tree.WellFormed)
    (named : ∀ name ∈ names, isName name = true)
    (arrives : tree.walkFrom .strict links place names = .ok spot) :
    ∃ steps, tree.Leads steps place names spot := by
  have shows := @shows_stride tree place names wellFormed named
  fun_induction walkFrom tree .strict links place names with
  | case1 links place names goal went =>
      cases arrives
      rwa [went] at shows
  | case2 => cases arrives
  | case3 => cases arrives
  | case4 place names next others went links induction =>
      rw [went] at shows
      obtain ⟨more, leads⟩ := induction shows.1 arrives (shows_stride wellFormed shows.1)
      exact shows.2 more spot leads

/-- Where a walk arrives, its names lead. -/
theorem exists_leads_of_walk (wellFormed : tree.WellFormed)
    (arrives : tree.walk .strict path = .ok spot) :
    ∃ steps, tree.Leads steps [] path.names spot := by
  obtain ⟨fine, arrives⟩ := walk_eq_ok_iff.mp arrives
  exact exists_leads_of_walkFrom wellFormed (List.all_eq_true.mp (flaw?_eq_none_iff.mp fine).1)
    arrives

/-! ## Following links -/

/-- The places that are known of links are where the links lead. -/
def Settles (tree : Tree) (known : LinkMap) : Prop :=
  ∀ place name target spot, tree.get? (place ++ [name]) = some (.link target) →
    known.lookup (place ++ [name]) = some (some spot) →
      ∃ steps, tree.Leads steps (startOf target place) target.names spot

/-- The links that are being followed take at least as many steps as are left. -/
def Awaits (tree : Tree) (known : LinkMap) (left : Nat) : Prop :=
  ∀ place name target steps spot, tree.get? (place ++ [name]) = some (.link target) →
    known.lookup (place ++ [name]) = some none →
      tree.Leads steps (startOf target place) target.names spot → left ≤ steps

/-- The same links are being followed. -/
def SameOpen (known later : LinkMap) : Prop :=
  ∀ place, later.lookup place = some none ↔ known.lookup place = some none

/-- The places of entries that are not being followed. -/
def free (tree : Tree) (known : LinkMap) : Finset Place :=
  (tree.entries.map Prod.fst).toFinset.filter fun place => known.lookup place ≠ some none

/-- A way to follow links is right as long as fewer places than a bound are free: from names that
lead somewhere it gets there, and what it gets to know of links is right. -/
def Follows (tree : Tree) (follow : Following) (bound : Nat) : Prop :=
  ∀ steps place names spot known, tree.Leads steps place names spot → tree.Settles known →
    tree.Awaits known steps → (tree.free known).card < bound →
      ∃ later, follow known place names = (.reached spot, later) ∧ tree.Settles later ∧
        SameOpen known later

theorem Awaits.mono (awaits : tree.Awaits known more) (fewer : steps ≤ more) :
    tree.Awaits known steps :=
  fun place name target needed spot isLink pending leads =>
    fewer.trans (awaits place name target needed spot isLink pending leads)

theorem Awaits.congr (awaits : tree.Awaits known steps) (same : SameOpen known later) :
    tree.Awaits later steps :=
  fun place name target needed spot isLink pending =>
    awaits place name target needed spot isLink ((same _).mp pending)

theorem free_eq (same : SameOpen known later) : tree.free later = tree.free known :=
  Finset.filter_congr fun place _ => not_congr (same place)

theorem lookup_cons_ne {value : Option Place} (different : other ≠ place) :
    ((place, value) :: known : LinkMap).lookup other = known.lookup other := by
  rw [List.lookup_cons, beq_false_of_ne different]

/-- What is known stays right when a link comes to be known whose place, if given, is where it
leads. -/
theorem Settles.cons {value : Option Place} (settles : tree.Settles known)
    (isLink : tree.get? (place ++ [name]) = some (.link target))
    (leads : ∀ spot, value = some spot →
      ∃ steps, tree.Leads steps (startOf target place) target.names spot) :
    tree.Settles ((place ++ [name], value) :: known) := by
  intro above last goal spot isLinkAgain looked
  by_cases same : above ++ [last] = place ++ [name]
  · obtain ⟨rfl, last⟩ := List.append_inj' same rfl
    cases last
    cases isLink.symm.trans isLinkAgain
    rw [List.lookup_cons_self] at looked
    exact leads spot (Option.some.inj looked)
  · rw [lookup_cons_ne same] at looked
    exact settles above last goal spot isLinkAgain looked

/-- A link is opened that takes fewer steps than are left. -/
theorem Awaits.opened (awaits : tree.Awaits known left)
    (isLink : tree.get? (place ++ [name]) = some (.link target))
    (followed : tree.Leads steps (startOf target place) target.names spot) (fewer : steps ≤ left) :
    tree.Awaits ((place ++ [name], none) :: known) steps := by
  intro above last goal needed other isLinkAgain pending leads
  by_cases same : above ++ [last] = place ++ [name]
  · obtain ⟨rfl, last⟩ := List.append_inj' same rfl
    cases last
    cases isLink.symm.trans isLinkAgain
    exact (followed.unique leads).1.le
  · rw [lookup_cons_ne same] at pending
    exact fewer.trans (awaits above last goal needed other isLinkAgain pending leads)

/-- Once it is known where an opened link leads, the links are open that were open before. -/
theorem SameOpen.closed (fresh : known.lookup place = none)
    (same : SameOpen ((place, none) :: known) later) :
    SameOpen known ((place, some spot) :: later) := by
  intro other
  by_cases here : other = place
  · subst here
    rw [List.lookup_cons_self, fresh]
    simp
  · rw [lookup_cons_ne here, same, lookup_cons_ne here]

/-- A link that is followed is free no more. -/
theorem card_free_lt (wellFormed : tree.WellFormed) (isLink : tree.get? (place ++ [name]) =
    some (.link target)) (fresh : known.lookup (place ++ [name]) = none) :
    (tree.free ((place ++ [name], none) :: known)).card < (tree.free known).card := by
  refine Finset.card_lt_card (Finset.ssubset_iff.mpr ⟨place ++ [name], ?_, ?_⟩)
  · simp [free]
  · intro spot member
    rcases Finset.mem_insert.mp member with rfl | member
    · have listed := wellFormed.mem_entries_iff.mpr ⟨by simp, isLink⟩
      refine Finset.mem_filter.mpr ⟨List.mem_toFinset.mpr (List.mem_map_of_mem listed), ?_⟩
      rw [fresh]
      nofun
    · obtain ⟨listed, open_⟩ := Finset.mem_filter.mp member
      refine Finset.mem_filter.mpr ⟨listed, ?_⟩
      by_cases same : spot = place ++ [name]
      · rw [same, fresh]
        nofun
      · rwa [lookup_cons_ne same] at open_

theorem settleAlong_on (notUp : name ≠ "..") (isName : isName name = true)
    (noLink : ∀ target, tree.get? (place ++ [name]) ≠ some (.link target)) :
    tree.settleAlong follow known place (name :: names) =
      tree.settleAlong follow known (place ++ [name]) names := by
  rw [settleAlong, if_neg notUp, if_neg (by simp [isName])]
  dsimp only
  split
  · next target isLink => exact absurd isLink (noLink target)
  · rfl

theorem follows_settleAlong (wellFormed : tree.WellFormed) (follows : tree.Follows follow depth) :
    tree.Follows (tree.settleAlong follow) (depth + 1) := by
  intro steps place names spot known leads
  induction leads generalizing known with
  | here place => exact fun settles _ _ => ⟨known, rfl, settles, fun _ => Iff.rfl⟩
  | up onward induction =>
      intro settles awaits room
      rw [settleAlong, if_pos rfl]
      exact induction known settles (awaits.mono (Nat.le_succ _)) room
  | @along steps place spot name names notUp isName noLink onward induction =>
      intro settles awaits room
      rw [settleAlong_on notUp isName noLink]
      exact induction known settles (awaits.mono (Nat.le_succ _)) room
  | @link steps more place middle spot name names target notUp isName isLink followed onward _
      onwardInduction =>
      intro settles awaits room
      rw [settleAlong, if_neg notUp, if_neg (by simp [isName])]
      dsimp only
      rw [isLink]
      dsimp only
      split
      · next found looked =>
          obtain ⟨_, again⟩ := settles place name target found isLink looked
          cases (followed.unique again).2
          exact onwardInduction known settles (awaits.mono (by omega)) room
      · next looked =>
          -- a link that is being followed would take more steps than are left
          have needed := awaits place name target steps middle isLink looked followed
          omega
      · next looked =>
          have opened := awaits.opened isLink followed (by omega)
          have fewer := card_free_lt wellFormed isLink looked
          obtain ⟨later, reached, settlesLater, same⟩ := follows steps (startOf target place)
            target.names middle _ followed (settles.cons isLink fun _ missing => by cases missing)
            opened (by omega)
          have closed : SameOpen known ((place ++ [name], some middle) :: later) :=
            same.closed looked
          rw [startOf] at reached
          rw [reached]
          dsimp only
          obtain ⟨last, arrived, settlesLast, sameLast⟩ :=
            onwardInduction ((place ++ [name], some middle) :: later)
              (settlesLater.cons isLink fun spot found => by cases found; exact ⟨_, followed⟩)
              ((awaits.congr closed).mono (by omega)) (by rwa [free_eq closed])
          exact ⟨last, arrived, settlesLast, fun spot => (sameLast spot).trans (closed spot)⟩

theorem follows_settle (wellFormed : tree.WellFormed) (depth : Nat) :
    tree.Follows (tree.settle depth) (depth + 1) := by
  induction depth with
  | zero => exact follows_settleAlong wellFormed fun _ _ _ _ _ _ _ _ room => absurd room (by omega)
  | succ depth induction => exact follows_settleAlong wellFormed induction

/-- There are never more links inside one another than there are entries. -/
theorem settle_of_leads (wellFormed : tree.WellFormed) (leads : tree.Leads steps [] names spot) :
    (tree.settle tree.entries.length [] [] names).1 = .reached spot := by
  have room : (tree.free []).card < tree.entries.length + 1 := by
    have bound := (tree.entries.map Prod.fst).toFinset_card_le
    rw [List.length_map] at bound
    exact Nat.lt_succ_of_le ((Finset.card_filter_le _ _).trans bound)
  obtain ⟨later, reached, -⟩ := follows_settle wellFormed tree.entries.length steps [] names spot []
    leads (fun _ _ _ _ _ => nofun) (fun _ _ _ _ _ _ => nofun) room
  rw [reached]

/-! ## Real paths -/

/-- The way straight to a place where something stands ends there, unless it is too long. -/
theorem walk_straight (wellFormed : tree.WellFormed) (stands : tree.get? spot = some entry)
    (unlinked : ∀ target, entry ≠ .link target) :
    tree.walk .strict ⟨"/", spot⟩ = .ok spot ∨ tree.walk .strict ⟨"/", spot⟩ = .error .tooLong := by
  have top : tree.walk .strict ⟨"/", []⟩ = .ok [] := rfl
  cases flawed : flaw? ⟨"/", spot⟩ with
  | none => exact .inl (wellFormed.walk_append top stands unlinked flawed)
  | some error =>
      right
      have named : spot.all isName = true :=
        List.all_eq_true.mpr fun name member => (wellFormed.proper stands name member).2.1
      rw [walk, flawed]
      rw [flaw?, if_neg (by simp [named])] at flawed
      split at flawed
      · cases flawed
        rfl
      · cases flawed

/-- If no link was added to a tree, the real path of a path is where it leads when the tree has
grown. -/
theorem resolve_of_grows (wellFormed : tree.WellFormed) (grows : tree.GrowsTo after added)
    (growsWell : after.WellFormed) (unlinked : ∀ other ∈ added, ∀ target, other.2 ≠ .link target)
    (arrives : after.walk .strict path = .ok spot) (stands : after.get? spot = some entry) :
    tree.resolve path = .ok ⟨"/", spot⟩ := by
  have sameLinks (place : Place) (target : Path) : tree.get? place = some (.link target) ↔
      after.get? place = some (.link target) := by
    refine ⟨grows.stays, fun isLink => ?_⟩
    cases stood : tree.get? place with
    | none => exact absurd rfl (unlinked _ (grows.mem_added stood isLink) target)
    | some entry => rw [← isLink, grows.stays stood]
  obtain ⟨steps, leads⟩ := exists_leads_of_walk growsWell arrives
  have settled := settle_of_leads wellFormed (leads.of_links sameLinks)
  have straight := walk_straight growsWell stands fun target isLink =>
    (firm_of_walk arrives).unlinked target (by rw [stands, isLink])
  have ends : tree.walk .strict ⟨"/", spot⟩ ≠ .error .endless ∧
      tree.walk .strict ⟨"/", spot⟩ ≠ .error .badName := by
    by_cases present : tree.walk .strict ⟨"/", spot⟩ = .error .absent
    · rw [present]
      exact ⟨nofun, nofun⟩
    · rw [← walk_of_grows grows present]
      rcases straight with arrived | long
      · rw [arrived]
        exact ⟨nofun, nofun⟩
      · rw [long]
        exact ⟨nofun, nofun⟩
  rw [resolve, settled]
  dsimp only
  split
  · next endless => exact absurd endless ends.1
  · next unnamed => exact absurd unnamed ends.2
  · rfl

/-- The real path of a path that leads somewhere is the place it leads to. -/
theorem resolve_of_walk (wellFormed : tree.WellFormed) (arrives : tree.walk .strict path = .ok spot)
    (stands : tree.get? spot = some entry) : tree.resolve path = .ok ⟨"/", spot⟩ :=
  resolve_of_grows wellFormed (.refl tree) wellFormed nofun arrives stands

/-! ## Real paths do not go up -/

/-- The places that are known of links have no double dots. -/
def Plain (known : LinkMap) : Prop :=
  ∀ place spot, (place, some spot) ∈ known → ".." ∉ spot

/-- If names come to a place, it has no double dots, nor have those that are then known. -/
def Settled.Plain : Settled × LinkMap → Prop
  | (.reached spot, later) => ".." ∉ spot ∧ Tree.Plain later
  | _ => True

theorem plain_nil : Plain [] :=
  fun _ _ member => absurd member List.not_mem_nil

theorem Plain.cons {value : Option Place} (plain : Plain known)
    (valuePlain : ∀ spot, value = some spot → ".." ∉ spot) : Plain ((place, value) :: known) := by
  intro other spot member
  rcases List.mem_cons.mp member with same | early
  · exact valuePlain spot (Prod.mk.inj same).2.symm
  · exact plain other spot early

theorem plain_settleAlong
    (follows : ∀ known place names, Plain known → ".." ∉ place →
      Settled.Plain (follow known place names))
    (plain : Plain known) (noDots : ".." ∉ place) :
    Settled.Plain (tree.settleAlong follow known place names) := by
  fun_induction settleAlong tree follow known place names with
  | case1 known place => exact ⟨noDots, plain⟩
  | case2 known place names induction =>
      exact induction plain fun member => noDots (List.mem_of_mem_dropLast member)
  | case3 => trivial
  | case4 known place name names notUp isName here target isLink spot looked induction =>
      exact induction plain (plain here spot (mem_of_lookup looked))
  | case5 => trivial
  | case6 known place name names notUp isName here target isLink fresh start spot later followed
      induction =>
      have startPlain : ".." ∉ start := by
        dsimp only [start]
        split
        · nofun
        · exact noDots
      have reached := follows ((here, none) :: known) start target.names
        (plain.cons fun spot => nofun) startPlain
      rw [followed] at reached
      refine induction (reached.2.cons fun other same => ?_) reached.1
      rw [← Option.some.inj same]
      exact reached.1
  | case7 => trivial
  | case8 => trivial
  | case9 known place name names notUp isName here noLink induction =>
      refine induction plain fun member => ?_
      rcases List.mem_append.mp member with early | last
      · exact noDots early
      · exact notUp (List.mem_singleton.mp last).symm

theorem plain_settle (tree : Tree) (depth : Nat) (known : LinkMap) (place : Place)
    (names : List String) (plain : Plain known) (noDots : ".." ∉ place) :
    Settled.Plain (tree.settle depth known place names) := by
  induction depth generalizing known place names with
  | zero => exact plain_settleAlong (fun _ _ _ _ _ => True.intro) plain noDots
  | succ depth induction => exact plain_settleAlong induction plain noDots

theorem noDots_collapse (path : Path) : ".." ∉ path.collapse.names := by
  have keeps (names kept : List String) (noDots : ".." ∉ kept) :
      ".." ∉ names.foldl (fun names name =>
        if name = ".." then names.dropLast else names ++ [name]) kept := by
    induction names generalizing kept with
    | nil => exact noDots
    | cons name names induction =>
        rw [List.foldl_cons]
        refine induction _ ?_
        split
        · exact fun member => noDots (List.mem_of_mem_dropLast member)
        · next notUp => simp [noDots, eq_comm, notUp]
  exact keeps path.names [] nofun

/-- A real path leads from the top, without double dots. -/
theorem plain_of_resolve {real : Path} (found : tree.resolve path = .ok real) :
    real.anchor = "/" ∧ ".." ∉ real.names := by
  have plain := plain_settle tree tree.entries.length [] [] path.names plain_nil List.not_mem_nil
  rw [resolve] at found
  cases settled : tree.settle tree.entries.length [] [] path.names with
  | mk became known =>
      rw [settled] at found plain
      cases became with
      | reached spot =>
          dsimp only at found
          split at found
          · cases found
          · cases found
          · cases found
            exact ⟨rfl, plain.1⟩
      | circular names =>
          dsimp only at found
          split at found
          · cases found
          · cases found
          · cases found
            exact ⟨rfl, noDots_collapse _⟩
      | unnamed => cases found

end CallGraph.Tree
