import Mathlib.Data.List.Dedup
import Mathlib.Data.List.Infix

namespace AgenticSecurity.Library.Git

/-- The names from the root of a tree down to a file. -/
abbrev TreePath := List String

/-- The files of a directory tree with their contents. -/
abbrev Tree (β : Type) := List (TreePath × β)

variable {β : Type}

def under (name : String) : TreePath × β → Option (TreePath × β)
  | ([], _) => none
  | (first :: rest, content) => if first = name then some (rest, content) else none

/-- The files under `name`. -/
def Tree.subtree (tree : Tree β) (name : String) : Tree β := tree.filterMap (under name)

/-- The tree with `part` in the place of what is under `name`. -/
def Tree.withSubtree (tree : Tree β) (name : String) (part : Tree β) : Tree β :=
  (tree.filter fun file ↦ file.1.head? ≠ some name) ++ part.map fun file ↦ (name :: file.1, file.2)

theorem Tree.subtree_withSubtree (tree : Tree β) (name : String) (part : Tree β) :
    (tree.withSubtree name part).subtree name = part := by
  have hrest : (tree.filter fun file ↦ file.1.head? ≠ some name).filterMap (under name) = [] := by
    refine List.filterMap_eq_nil_iff.mpr ?_
    rintro ⟨path, content⟩ hfile
    have hname := (List.mem_filter.mp hfile).2
    cases path with
    | nil => rfl
    | cons first rest => exact if_neg (by simpa using hname)
  have hpart : (part.map fun file ↦ (name :: file.1, file.2)).filterMap (under name) = part := by
    rw [List.filterMap_map]
    exact (List.filterMap_congr fun file _ ↦ if_pos rfl).trans List.filterMap_some
  unfold Tree.subtree Tree.withSubtree
  rw [List.filterMap_append, hrest, hpart, List.nil_append]

/-- The files that are not under `name`. -/
def Tree.outside (tree : Tree β) (name : String) : Tree β :=
  tree.filter fun file ↦ file.1.head? ≠ some name

theorem Tree.outside_withSubtree (tree : Tree β) (name : String) (part : Tree β) :
    (tree.withSubtree name part).outside name = tree.outside name := by
  have hpart :
      (part.map fun file ↦ (name :: file.1, file.2)).filter (fun file ↦ file.1.head? ≠ some name) =
      [] := by
    refine List.filter_eq_nil_iff.mpr fun file hfile ↦ ?_
    obtain ⟨source, -, rfl⟩ := List.mem_map.mp hfile
    simp
  unfold Tree.outside Tree.withSubtree
  rw [List.filter_append, List.filter_filter, hpart, List.append_nil]
  simp

structure Commit (β : Type) where
  tree : Tree β
  stamp : ℕ
  deriving DecidableEq

/-- A commit and its ancestors, from the newest to the root. -/
abbrev History (β : Type) := List (Commit β)

def History.tree (history : History β) : Tree β := (history.head?.map Commit.tree).getD []

@[simp] theorem History.tree_cons (commit : Commit β) (history : History β) :
    History.tree (commit :: history) = commit.tree := rfl

/-- A working directory with its index; `originMain` once it has been fetched. -/
structure Worktree (β : Type) where
  isRepository : Bool := true
  history : History β
  originMain : Option (History β) := none
  index : Tree β
  files : Tree β

/-- A directory that git has not made. -/
def plainDirectory (files : Tree β) : Worktree β where
  isRepository := false
  history := []
  index := []
  files := files

/-- What the settings of git, and the `.gitignore` and `.gitattributes` files of a directory,
decide: the files that it passes over, what it stores of a file and what it writes of what is
stored, which of the files that differ a diff names, and the commit where two histories part. -/
structure Settings (β : Type) where
  ignores : Worktree β → TreePath → Bool
  clean : Worktree β → TreePath → β → β
  smudge : Tree β → TreePath → β → β
  diff : Tree β → Tree β → List TreePath
  diff_differs : ∀ a b path, path ∈ diff a b → a.lookup path ≠ b.lookup path
  mergeBase : History β → History β → History β
  mergeBase_cons : ∀ history commit, mergeBase history (commit :: history) = history

variable (git : Settings β)

/-- The files that `git clone` or `git checkout` writes. -/
def Settings.checkout (tree : Tree β) : Tree β :=
  tree.map fun file ↦ (file.1, git.smudge tree file.1 file.2)

def Settings.clone (history : History β) : Worktree β where
  history := history
  index := history.tree
  files := git.checkout history.tree

/-- What is stored of a file under `name`; one that is ignored is passed over unless the index has
it. -/
def Settings.stored (worktree : Worktree β) (name : String) (file : TreePath × β) :
    Option (TreePath × β) :=
  if (worktree.index.lookup (name :: file.1)).isNone &&
    git.ignores worktree (name :: file.1) then none
  else some (file.1, git.clean worktree (name :: file.1) file.2)

/-- `git add -- name`, which fails when there is nothing by that name. -/
def Settings.add (worktree : Worktree β) (name : String) : Option (Worktree β) :=
  let files := worktree.files.subtree name
  if files = [] ∧ worktree.index.subtree name = [] then none
  else some { worktree with
    index := worktree.index.withSubtree name (files.filterMap (git.stored worktree name)) }

/-- `git add` passes over no file under `name`, and stores each as it is. -/
def Settings.StoresAll (worktree : Worktree β) (name : String) : Prop :=
  ∀ file ∈ worktree.files.subtree name, git.stored worktree name file = some file

/-- A checkout writes the files under `name` as they are stored. -/
def Settings.WritesAll (tree : Tree β) (name : String) : Prop :=
  ∀ file ∈ tree, file.1.head? = some name → git.smudge tree file.1 file.2 = file.2

variable {git}

theorem Settings.checkout_subtree {tree : Tree β} {name : String} (h : git.WritesAll tree name) :
    (git.checkout tree).subtree name = tree.subtree name := by
  unfold Tree.subtree Settings.checkout
  rw [List.filterMap_map]
  refine List.filterMap_congr fun file hfile ↦ ?_
  obtain ⟨path, content⟩ := file
  cases path with
  | nil => rfl
  | cons first rest =>
    by_cases hname : first = name
    · have hcontent : git.smudge tree (first :: rest) content = content :=
        h _ hfile (congrArg some hname)
      simp [under, hcontent]
    · simp [under, hname]

theorem Settings.add_ok {worktree worktree' : Worktree β} {name : String}
    (h : git.add worktree name = some worktree') :
    worktree'.history = worktree.history ∧
    worktree'.index.outside name = worktree.index.outside name := by
  unfold Settings.add at h
  dsimp only at h
  split_ifs at h
  obtain rfl := Option.some.inj h
  exact ⟨rfl, Tree.outside_withSubtree _ _ _⟩

theorem Settings.stored_all {worktree : Worktree β} {name : String}
    (h : git.StoresAll worktree name) :
    (worktree.files.subtree name).filterMap (git.stored worktree name) =
      worktree.files.subtree name :=
  (List.filterMap_congr h).trans List.filterMap_some

theorem Settings.add_subtree {worktree worktree' : Worktree β} {name : String}
    (hstores : git.StoresAll worktree name) (h : git.add worktree name = some worktree') :
    worktree'.index.subtree name = worktree.files.subtree name := by
  unfold Settings.add at h
  dsimp only at h
  split_ifs at h
  obtain rfl := Option.some.inj h
  exact (Tree.subtree_withSubtree _ _ _).trans (stored_all hstores)

/-- Commits on `base` that leave alone what is not under `name`. -/
def ChangesOnly (name : String) (base history : History β) : Prop :=
  ∃ commits, history = commits ++ base ∧
    ∀ commit ∈ commits, commit.tree.outside name = base.tree.outside name

theorem ChangesOnly.refl (name : String) (base : History β) : ChangesOnly name base base :=
  ⟨[], rfl, fun _ h ↦ (by cases h)⟩

theorem ChangesOnly.tree {name : String} {base history : History β}
    (h : ChangesOnly name base history) :
    history.tree.outside name = base.tree.outside name := by
  obtain ⟨commits, rfl, hcommits⟩ := h
  cases commits with
  | nil => rfl
  | cons commit commits => exact hcommits commit List.mem_cons_self

theorem ChangesOnly.commit {name : String} {base history : History β} {commit : Commit β}
    (h : ChangesOnly name base history)
    (hcommit : commit.tree.outside name = history.tree.outside name) :
    ChangesOnly name base (commit :: history) := by
  have hbase := hcommit.trans h.tree
  obtain ⟨commits, rfl, hcommits⟩ := h
  exact ⟨commit :: commits, rfl, List.forall_mem_cons.mpr ⟨hbase, hcommits⟩⟩

variable [DecidableEq β]

def commonStart : History β → History β → History β
  | a :: as, b :: bs => if a = b then a :: commonStart as bs else []
  | _, _ => []

/-- The newest commit that both have, with its ancestors. -/
def lastCommon (a b : History β) : History β := (commonStart a.reverse b.reverse).reverse

/-- `git diff --name-only`. -/
def changedPaths (a b : Tree β) : List TreePath :=
  ((a ++ b).map Prod.fst).dedup.filter fun path ↦ a.lookup path ≠ b.lookup path

/-- `git commit`, which fails when nothing is staged. -/
def Worktree.commit (worktree : Worktree β) (stamp : ℕ) : Option (Worktree β) :=
  if changedPaths worktree.history.tree worktree.index = [] then none
  else some { worktree with history := { tree := worktree.index, stamp } :: worktree.history }

/-- What a branch is after `git push`; a branch that is there must be fast-forwarded. -/
def push (branch : Option (History β)) (history : History β) : Option (History β) :=
  match branch with
  | none => some history
  | some old => if old <:+ history then some history else none

theorem commonStart_append (older newer : History β) :
    commonStart older (older ++ newer) = older := by
  induction older with
  | nil => cases newer <;> rfl
  | cons commit older ih => rw [List.cons_append, commonStart, if_pos rfl, ih]

theorem lastCommon_cons (history : History β) (commit : Commit β) :
    lastCommon history (commit :: history) = history := by
  rw [lastCommon, List.reverse_cons, commonStart_append, List.reverse_reverse]

theorem diff_eq_nil {git : Settings β} {a b : Tree β} (h : changedPaths a b = []) :
    git.diff a b = [] := by
  refine List.eq_nil_iff_forall_not_mem.mpr fun path hpath ↦ ?_
  have hdiffers := git.diff_differs a b path hpath
  have hmem : path ∈ (a ++ b).map Prod.fst := by
    by_contra hnot
    rw [List.map_append, List.mem_append, not_or] at hnot
    have hnone : ∀ tree : Tree β, path ∉ tree.map Prod.fst → tree.lookup path = none := by
      intro tree htree
      refine List.lookup_eq_none_iff.mpr fun file hfile ↦ bne_iff_ne.mpr fun hpath ↦ htree ?_
      exact List.mem_map.mpr ⟨file, hfile, hpath.symm⟩
    exact hdiffers ((hnone a hnot.1).trans (hnone b hnot.2).symm)
  have hchanged : path ∈ changedPaths a b :=
    List.mem_filter.mpr ⟨List.mem_dedup.mpr hmem, decide_eq_true hdiffers⟩
  rw [h] at hchanged
  cases hchanged

/-- Settings under which git passes over nothing and changes nothing. -/
def Settings.plain : Settings β where
  ignores _ _ := false
  clean _ _ content := content
  smudge _ _ content := content
  diff := changedPaths
  diff_differs _ _ _ h := of_decide_eq_true (List.mem_filter.mp h).2
  mergeBase := lastCommon
  mergeBase_cons := lastCommon_cons

theorem Settings.plain_storesAll (worktree : Worktree β) (name : String) :
    (Settings.plain : Settings β).StoresAll worktree name := fun file _ ↦ by
  simp [Settings.stored, Settings.plain]

theorem Worktree.commit_ok {worktree worktree' : Worktree β} {stamp : ℕ}
    (h : worktree.commit stamp = some worktree') :
    worktree'.history = { tree := worktree.index, stamp } :: worktree.history := by
  unfold Worktree.commit at h
  split_ifs at h
  obtain rfl := Option.some.inj h
  rfl

theorem Worktree.commit_index {worktree worktree' : Worktree β} {stamp : ℕ}
    (h : worktree.commit stamp = some worktree') : worktree'.index = worktree.index := by
  unfold Worktree.commit at h
  split_ifs at h
  obtain rfl := Option.some.inj h
  rfl

theorem push_ok {branch : Option (History β)} {history history' : History β}
    (h : push branch history = some history') : history' = history := by
  unfold push at h
  split at h
  · exact (Option.some.inj h).symm
  · split_ifs at h
    exact (Option.some.inj h).symm

theorem push_suffix {old history history' : History β}
    (h : push (some old) history = some history') :
    old <:+ history' := by
  unfold push at h
  dsimp only at h
  split_ifs at h with hsuffix
  exact Option.some.inj h ▸ hsuffix

theorem push_sibling {base branch : History β} {old new : Commit β}
    (h : push (some (old :: base)) (new :: base) = some branch) : branch = old :: base := by
  unfold push at h
  dsimp only at h
  split_ifs at h with hsuffix
  exact (Option.some.inj h).symm.trans (hsuffix.eq_of_length rfl).symm

end AgenticSecurity.Library.Git
