import CallGraph.Project.Build

/-!
# Work that only looks

Selecting dumps, reading them and building a table change nothing: such work leaves the tree as it
is, and what it gives depends on the tree alone.  `Work.outcome` is what it gives, and takes a
sequence of such work to the sequence of the outcomes.
-/

namespace CallGraph

namespace Work

variable {α β : Type} {tree : Tree} {journal : List Event}

/-- What work gives on a tree when nothing was reported before. -/
def outcome (action : Work α) (tree : Tree) : Except Failure α :=
  match action ⟨tree, []⟩ with
  | .ok value _ => .ok value
  | .error failure _ => .error failure

/-- An outcome with the workspace that is left behind. -/
def ending (outcome : Except Failure α) (workspace : Workspace) :
    EStateM.Result Failure Workspace α :=
  match outcome with
  | .ok value => .ok value workspace
  | .error failure => .error failure workspace

/-- Work that gives what a function of the tree says, and leaves the tree as it is. -/
def Gives (action : Work α) (answer : Tree → Except Failure α) : Prop :=
  ∀ tree journal, ∃ later, action ⟨tree, journal⟩ = ending (answer tree) ⟨tree, later⟩

/-- Work that only looks at the tree. -/
def Looks (action : Work α) : Prop := action.Gives action.outcome

theorem Gives.outcome_eq {action : Work α} {answer : Tree → Except Failure α}
    (gives : action.Gives answer) (tree : Tree) : action.outcome tree = answer tree := by
  obtain ⟨later, ended⟩ := gives tree []
  rw [outcome, ended]
  cases answer tree <;> rfl

theorem Gives.looks {action : Work α} {answer : Tree → Except Failure α}
    (gives : action.Gives answer) : action.Looks := by
  intro tree journal
  rw [gives.outcome_eq]
  exact gives tree journal

/-- Work in two parts fails in the first or in the second. -/
theorem bind_eq_error_iff {α β : Type} {action : Work α} {next : α → Work β}
    {workspace after : Workspace} {failure : Failure} :
    (action >>= next) workspace = .error failure after ↔
      action workspace = .error failure after ∨ ∃ value middle,
        action workspace = .ok value middle ∧ next value middle = .error failure after := by
  change EStateM.bind action next workspace = _ ↔ _
  unfold EStateM.bind
  cases action workspace with
  | error => simp
  | ok value middle =>
      constructor
      · exact fun failed => .inr ⟨value, middle, rfl, failed⟩
      · rintro (⟨⟨⟩⟩ | ⟨_, _, ⟨⟩, failed⟩)
        exact failed

theorem ending_eq_ok_iff {outcome : Except Failure α} {value : α} {workspace after : Workspace} :
    ending outcome workspace = .ok value after ↔ outcome = .ok value ∧ workspace = after := by
  cases outcome <;> simp [ending]

theorem ending_eq_error_iff {outcome : Except Failure α} {failure : Failure}
    {workspace after : Workspace} :
    ending outcome workspace = .error failure after ↔
      outcome = .error failure ∧ workspace = after := by
  cases outcome <;> simp [ending]

namespace Looks

variable {action : Work α} {value : α} {failure : Failure} {workspace after : Workspace}

/-- The outcome says how the work ends in every workspace with the tree. -/
theorem exists_ending (looks : action.Looks) (workspace : Workspace) :
    ∃ later, action workspace = ending (action.outcome workspace.tree) ⟨workspace.tree, later⟩ :=
  looks workspace.tree workspace.journal

/-- Work that succeeds has left the tree as it was. -/
theorem of_ok (looks : action.Looks) (ended : action workspace = .ok value after) :
    action.outcome workspace.tree = .ok value ∧ after.tree = workspace.tree := by
  obtain ⟨later, same⟩ := looks.exists_ending workspace
  obtain ⟨given, rfl⟩ := ending_eq_ok_iff.mp (same.symm.trans ended)
  exact ⟨given, rfl⟩

/-- Work that fails has left the tree as it was. -/
theorem of_error (looks : action.Looks) (ended : action workspace = .error failure after) :
    action.outcome workspace.tree = .error failure ∧ after.tree = workspace.tree := by
  obtain ⟨later, same⟩ := looks.exists_ending workspace
  obtain ⟨given, rfl⟩ := ending_eq_error_iff.mp (same.symm.trans ended)
  exact ⟨given, rfl⟩

theorem exists_ok (looks : action.Looks) (given : action.outcome workspace.tree = .ok value) :
    ∃ later, action workspace = .ok value ⟨workspace.tree, later⟩ := by
  obtain ⟨later, ended⟩ := looks.exists_ending workspace
  exact ⟨later, ended.trans (ending_eq_ok_iff.mpr ⟨given, rfl⟩)⟩

theorem exists_error (looks : action.Looks)
    (given : action.outcome workspace.tree = .error failure) :
    ∃ later, action workspace = .error failure ⟨workspace.tree, later⟩ := by
  obtain ⟨later, ended⟩ := looks.exists_ending workspace
  exact ⟨later, ended.trans (ending_eq_error_iff.mpr ⟨given, rfl⟩)⟩

end Looks

/-! ## Steps of work -/

theorem gives_pure (value : α) : (pure value : Work α).Gives fun _ => .ok value :=
  fun _ journal => ⟨journal, rfl⟩

theorem gives_throw (failure : Failure) : (throw failure : Work α).Gives fun _ => .error failure :=
  fun _ journal => ⟨journal, rfl⟩

theorem gives_report (events : List Event) : (report events).Gives fun _ => .ok () :=
  fun _ journal => ⟨journal ++ events, rfl⟩

theorem gives_tree : Work.tree.Gives fun tree => .ok tree :=
  fun _ journal => ⟨journal, rfl⟩

theorem gives_demand {ε : Type} (cause : ε → Failure) (answer : Except ε α) :
    (demand cause answer).Gives fun _ => answer.mapError cause := by
  cases answer with
  | ok value => exact gives_pure value
  | error error => exact gives_throw (cause error)

theorem gives_bind {action : Work α} {next : α → Work β} (looks : action.Looks)
    (goesOn : ∀ value, (next value).Looks) :
    (action >>= next).Gives fun tree =>
      action.outcome tree >>= fun value => (next value).outcome tree := by
  intro tree journal
  obtain ⟨middle, first⟩ := looks tree journal
  cases given : action.outcome tree with
  | error failure =>
      rw [given] at first
      refine ⟨middle, ?_⟩
      change EStateM.bind action next ⟨tree, journal⟩ = ending (action.outcome tree >>= _) _
      rw [EStateM.bind, first, given]
      rfl
  | ok value =>
      rw [given] at first
      obtain ⟨later, second⟩ := goesOn value tree middle
      refine ⟨later, ?_⟩
      change EStateM.bind action next ⟨tree, journal⟩ = ending (action.outcome tree >>= _) _
      rw [EStateM.bind, first, given]
      exact second

theorem looks_pure (value : α) : (pure value : Work α).Looks := (gives_pure value).looks

theorem looks_throw (failure : Failure) : (throw failure : Work α).Looks :=
  (gives_throw failure).looks

theorem looks_report (events : List Event) : (report events).Looks := (gives_report events).looks

theorem looks_demand {ε : Type} (cause : ε → Failure) (answer : Except ε α) :
    (demand cause answer).Looks := (gives_demand cause answer).looks

theorem Looks.bind {action : Work α} {next : α → Work β} (looks : action.Looks)
    (goesOn : ∀ value, (next value).Looks) : (action >>= next).Looks :=
  (gives_bind looks goesOn).looks

theorem looks_ite {condition : Prop} [Decidable condition] {left right : Work α}
    (leftLooks : left.Looks) (rightLooks : right.Looks) :
    (if condition then left else right).Looks := by
  split
  · exact leftLooks
  · exact rightLooks

theorem outcome_bind {action : Work α} {next : α → Work β} (looks : action.Looks)
    (goesOn : ∀ value, (next value).Looks) (tree : Tree) :
    (action >>= next).outcome tree =
      action.outcome tree >>= fun value => (next value).outcome tree :=
  (gives_bind looks goesOn).outcome_eq tree

theorem outcome_bind_eq_ok_iff {action : Work α} {next : α → Work β} {value : β}
    (looks : action.Looks) (goesOn : ∀ value, (next value).Looks) :
    (action >>= next).outcome tree = .ok value ↔
      ∃ middle, action.outcome tree = .ok middle ∧ (next middle).outcome tree = .ok value := by
  rw [outcome_bind looks goesOn]
  cases action.outcome tree with
  | error failure => simp [bind, Except.bind]
  | ok middle => simp [bind, Except.bind]

/-! ## Sequences -/

theorem looks_mapM {action : α → Work β} (looks : ∀ item, (action item).Looks) (items : List α) :
    (items.mapM action).Looks := by
  induction items with
  | nil => exact looks_pure []
  | cons item items induction =>
      rw [List.mapM_cons]
      exact (looks item).bind fun _ => induction.bind fun _ => looks_pure _

/-- Work that gives an answer for every item gives all the answers. -/
theorem outcome_mapM {action : α → Work β} {answer : α → β} {items : List α}
    (looks : ∀ item, (action item).Looks)
    (given : ∀ item ∈ items, (action item).outcome tree = .ok (answer item)) :
    (items.mapM action).outcome tree = .ok (items.map answer) := by
  induction items with
  | nil => rfl
  | cons item items induction =>
      rw [List.forall_mem_cons] at given
      rw [List.mapM_cons, outcome_bind (looks item) fun _ =>
        (looks_mapM looks items).bind fun _ => looks_pure _, given.1]
      change (items.mapM action >>= _ : Work (List β)).outcome tree = _
      rw [outcome_bind (looks_mapM looks items) fun _ => looks_pure _, induction given.2]
      rfl

theorem looks_foldlM {step : β → α → Work β} (looks : ∀ state item, (step state item).Looks)
    (items : List α) (state : β) : (items.foldlM step state).Looks := by
  induction items generalizing state with
  | nil => exact looks_pure state
  | cons item items induction =>
      rw [List.foldlM_cons]
      exact (looks state item).bind induction

theorem looks_keep {test : α → Work Bool} (looks : ∀ item, (test item).Looks) (items : List α) :
    (keep test items).Looks := by
  induction items with
  | nil => exact looks_pure []
  | cons item items induction =>
      refine (looks item).bind fun _ => looks_ite ?_ induction
      exact induction.bind fun _ => looks_pure _

/-! ## The same work on two trees -/

/-- Work gives on one tree what it gives on another. -/
def Agrees (action : Work α) (tree after : Tree) : Prop :=
  action.outcome after = action.outcome tree

section Agrees

variable {after : Tree}

theorem Gives.agrees {action : Work α} {answer : Tree → Except Failure α}
    (gives : action.Gives answer) (same : answer after = answer tree) :
    action.Agrees tree after := by
  rw [Agrees, gives.outcome_eq, gives.outcome_eq, same]

theorem agrees_pure (value : α) : (pure value : Work α).Agrees tree after := rfl

theorem agrees_throw (failure : Failure) : (throw failure : Work α).Agrees tree after := rfl

theorem agrees_report (events : List Event) : (report events).Agrees tree after := rfl

theorem agrees_demand {ε : Type} (cause : ε → Failure) (answer : Except ε α) :
    (demand cause answer).Agrees tree after := (gives_demand cause answer).agrees rfl

/-- Work in two parts agrees if its parts do, the second after whatever the first gives. -/
theorem Agrees.bind {action : Work α} {next : α → Work β} (agrees : action.Agrees tree after)
    (looks : action.Looks) (goesOn : ∀ value, (next value).Looks)
    (onward : ∀ value, action.outcome tree = .ok value → (next value).Agrees tree after) :
    (action >>= next).Agrees tree after := by
  rw [Agrees, outcome_bind looks goesOn, outcome_bind looks goesOn, agrees]
  cases given : action.outcome tree with
  | error failure => rfl
  | ok value => exact onward value given

theorem agrees_mapM {action : α → Work β} {items : List α} (looks : ∀ item, (action item).Looks)
    (agrees : ∀ item ∈ items, (action item).Agrees tree after) :
    (items.mapM action).Agrees tree after := by
  induction items with
  | nil => exact agrees_pure []
  | cons first others induction =>
      rw [List.forall_mem_cons] at agrees
      rw [List.mapM_cons]
      refine agrees.1.bind (looks first) (fun _ => (looks_mapM looks others).bind fun _ =>
        looks_pure _) fun _ _ => ?_
      exact (induction agrees.2).bind (looks_mapM looks others) (fun _ => looks_pure _)
        fun _ _ => agrees_pure _

theorem agrees_foldlM {step : β → α → Work β} (looks : ∀ state item, (step state item).Looks)
    (agrees : ∀ state item, (step state item).Agrees tree after) (items : List α) (state : β) :
    (items.foldlM step state).Agrees tree after := by
  induction items generalizing state with
  | nil => exact agrees_pure state
  | cons item items induction =>
      rw [List.foldlM_cons]
      exact (agrees state item).bind (looks state item) (looks_foldlM looks items)
        fun state _ => induction state

end Agrees

/-! ## Looking at the tree -/

theorem gives_look (path : Path) :
    (look path).Gives fun tree => (tree.look path).mapError .tree :=
  fun tree => gives_demand Failure.tree (tree.look path) tree

theorem looks_look (path : Path) : (look path).Looks := (gives_look path).looks

theorem looks_holds (path : Path) : (holds path).Looks :=
  (looks_look path).bind fun _ => looks_pure _

theorem looks_isDirectory (path : Path) : (isDirectory path).Looks :=
  (looks_look path).bind fun _ => looks_pure _

theorem looks_isFile (path : Path) : (isFile path).Looks := by
  refine (looks_look path).bind fun found => ?_
  split
  · exact looks_pure true
  · exact looks_pure false

theorem gives_isLink (path : Path) :
    (isLink path).Gives fun tree => (tree.isLink path).mapError .tree :=
  fun tree => gives_demand Failure.tree (tree.isLink path) tree

theorem looks_isLink (path : Path) : (isLink path).Looks := (gives_isLink path).looks

theorem gives_read (path : Path) :
    (read path).Gives fun tree => (tree.read path).mapError .tree :=
  fun tree => gives_demand Failure.tree (tree.read path) tree

theorem looks_read (path : Path) : (read path).Looks := (gives_read path).looks

theorem gives_resolve (path : Path) :
    (resolve path).Gives fun tree => (tree.resolve path).mapError resolveFailure :=
  fun tree => gives_demand resolveFailure (tree.resolve path) tree

theorem looks_resolve (path : Path) : (resolve path).Looks := (gives_resolve path).looks

end Work

open Work

/-! ## Settings -/

theorem looks_load (root : Path) : (Settings.load root).Looks := by
  refine (looks_isFile _).bind fun present => looks_ite (looks_pure _) ?_
  refine (looks_read _).bind fun bytes => ?_
  split
  · exact looks_throw _
  · exact (looks_demand _ _).bind fun _ => (looks_report _).bind fun _ => looks_pure _

theorem looks_resolveOutputDir (root : Path) (outputDir : String) :
    (resolveOutputDir root outputDir).Looks := by
  refine looks_ite ((looks_throw _).bind fun _ => ?_) ?_
  all_goals refine looks_ite ((looks_throw _).bind fun _ => ?_) ?_
  all_goals
    refine (looks_resolve _).bind fun _ => (looks_resolve _).bind fun _ => looks_ite ?_ ?_
    · exact (looks_throw _).bind fun _ => looks_pure _
    · exact looks_pure _

/-! ## Selecting and reading dumps -/

theorem looks_isOwnFile (path : Path) : (Selection.isOwnFile path).Looks :=
  (looks_isFile path).bind fun _ =>
    looks_ite ((looks_isLink path).bind fun _ => looks_pure _) (looks_pure _)

theorem looks_readIgnoreFile (reader : IgnoreReader) (path : Path) :
    (Selection.readIgnoreFile reader path).Looks := by
  refine (looks_read path).bind fun bytes => ?_
  split
  · exact looks_throw _
  · exact looks_demand _ _

theorem looks_ignoreFilesBelow (root : Path) : (Selection.ignoreFilesBelow root).Looks :=
  gives_tree.looks.bind fun _ => (looks_keep looks_isOwnFile _).bind fun _ => looks_pure _

theorem looks_readIgnoreFiles (root : Path) (scope : IgnoreScope) (reader : IgnoreReader) :
    (Selection.readIgnoreFiles root scope reader).Looks := by
  cases scope with
  | rootOnly =>
      refine (looks_isFile _).bind fun _ => looks_ite ?_ (looks_pure _)
      exact (looks_readIgnoreFile _ _).bind fun _ => looks_pure _
  | nested =>
      exact (looks_ignoreFilesBelow root).bind fun _ => looks_mapM (looks_readIgnoreFile _) _

theorem looks_leadsInside (root path : Path) : (Selection.leadsInside root path).Looks :=
  (looks_resolve path).bind fun _ => (looks_resolve root).bind fun _ => looks_pure _

theorem looks_accepts (selection : Selection) (path : Path) : (selection.accepts path).Looks := by
  refine (looks_isOwnFile path).bind fun _ => looks_ite (looks_pure _) ?_
  refine (looks_leadsInside _ path).bind fun _ => looks_ite (looks_pure _) ?_
  split
  · exact looks_throw _
  · refine looks_ite (looks_pure _) ((looks_demand _ _).bind fun _ => ?_)
    exact looks_ite (looks_pure _) (looks_pure _)

theorem looks_canLeadOn (parts : PathPattern) (path : Path) : (parts.canLeadOn path).Looks :=
  looks_ite (looks_pure _) (looks_isDirectory path)

theorem looks_select (pattern : PathPattern) (path : Path) : (pattern.select path).Looks := by
  fun_induction PathPattern.select pattern path with
  | case1 path => exact looks_pure _
  | case2 path => exact looks_pure _
  | case3 path name parts next induction =>
      refine (looks_holds _).bind fun _ => looks_ite ?_ (looks_pure _)
      exact (looks_canLeadOn _ _).bind fun _ => looks_ite induction (looks_pure _)
  | case4 path pattern parts induction =>
      refine gives_tree.looks.bind fun _ => (looks_mapM (fun next => ?_) _).bind fun _ =>
        looks_pure _
      refine (looks_canLeadOn _ _).bind fun _ => looks_ite ?_ (looks_pure _)
      exact looks_ite (induction next) (looks_pure _)
  | case5 path parts induction =>
      exact gives_tree.looks.bind fun _ => (looks_mapM induction _).bind fun _ => looks_pure _

theorem looks_selectBelow (pattern : PathPattern) (directory : Path) :
    (pattern.selectBelow directory).Looks :=
  (looks_isDirectory directory).bind fun _ => looks_ite (looks_select _ _) (looks_pure _)

theorem looks_dumps (scan : Scan) : scan.dumps.Looks := by
  refine (looks_readIgnoreFiles _ _ _).bind fun _ => ?_
  split
  · exact looks_throw _
  · refine (looks_selectBelow _ _).bind fun _ => (looks_keep (looks_accepts _) _).bind fun _ => ?_
    exact (looks_report _).bind fun _ => looks_pure _

theorem looks_readSection (path : Path) : (readSection path).Looks :=
  (looks_read path).bind fun _ => looks_pure _

theorem looks_readDump (root : Path) (suffix : String) (table : Table)
    (dump : Path × List String) : (readDump root suffix table dump).Looks := by
  refine (looks_report _).bind fun _ => ?_
  split
  · exact (looks_report _).bind fun _ => looks_pure _
  · exact (looks_report _).bind fun _ => looks_throw _

theorem looks_buildFromFiles (root : Path) (suffix : String) (files : List Path) :
    (buildFromFiles root suffix files).Looks :=
  (looks_mapM looks_readSection files).bind fun _ =>
    (looks_foldlM (looks_readDump root suffix) _ _).bind fun _ =>
      (looks_report _).bind fun _ => looks_pure _

theorem looks_buildProject (root : Path) (settings : Settings) (outputDir : String)
    (reader : IgnoreReader) : (buildProject root settings outputDir reader).Looks :=
  (looks_dumps _).bind fun _ => (looks_report _).bind fun _ =>
    (looks_buildFromFiles _ _ _).bind fun _ => (looks_report _).bind fun _ => looks_pure _

end CallGraph
