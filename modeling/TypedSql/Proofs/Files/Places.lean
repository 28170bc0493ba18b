import Mathlib.Data.List.Induction
import TypedSql.Files.Tree
import TypedSql.Proofs.Outcome
import TypedSql.Proofs.Path.Parent

namespace TypedSql.FileTree

/-! # The places of a path in a tree

The steps of a path lead from place to place, whatever there is at these places. Following a path in
a tree goes the same way and stops where there is no directory to step out of. So what a tree says
about a path depends on the places that the path passes only, and a tree that has grown by
directories and files away from those says the same.
-/

/-! ## Ways -/

/-- The place that a step leads to. -/
def moved (here : List String) (step : List Char) : List String :=
  if step = [] ∨ step = ['.'] then here
  else if step = ['.', '.'] then here.dropLast
  else here ++ [String.ofList step]

/-- The places that steps lead to, one after another. -/
def passed (here : List String) : List (List Char) → List (List String)
  | [] => []
  | step :: steps => moved here step :: passed (moved here step) steps

/-- The place where steps lead in the end. -/
def reached (here : List String) (steps : List (List Char)) : List String :=
  steps.foldl moved here

/-- An idle step stays where it is. -/
theorem moved_of_idle {step : List Char} (h : Path.IsIdle step) (here : List String) :
    moved here step = here := if_pos h

/-- A step that is a name leads down. -/
theorem moved_of_name {step : List Char} (hidle : ¬ Path.IsIdle step) (hparent : step ≠ ['.', '.'])
    (here : List String) : moved here step = here ++ [String.ofList step] := by
  have hstay : ¬ (step = [] ∨ step = ['.']) := hidle
  rw [moved, if_neg hstay, if_neg hparent]

/-- Where absolute paths start, or relative ones. -/
def origin (t : FileTree) (absolute : Bool) : List String :=
  if absolute then [] else t.workingDirectory

/-- The place that a path leads to. -/
def place (t : FileTree) (p : Path) : List String := reached (t.origin p.isAbsolute) p.segments

/-- Two paths of which neither leads to the place of the other or to a place below that. -/
def Apart (t : FileTree) (p q : Path) : Prop :=
  ¬ t.place p <+: t.place q ∧ ¬ t.place q <+: t.place p

instance (t : FileTree) (p q : Path) : Decidable (t.Apart p q) :=
  inferInstanceAs (Decidable (_ ∧ _))

/-- It makes no difference which of two paths is named first. -/
theorem Apart.symm {t : FileTree} {p q : Path} (h : t.Apart p q) : t.Apart q p := ⟨h.2, h.1⟩

/-- Paths that are apart lead to different places. -/
theorem Apart.place_ne {t : FileTree} {p q : Path} (h : t.Apart p q) : t.place p ≠ t.place q :=
  fun heq => h.1 ⟨[], (List.append_nil _).trans heq⟩

/-- A way of two parts passes the places of the first part and, from where it ends, those of the
second. -/
theorem passed_append (here : List String) (steps more : List (List Char)) :
    passed here (steps ++ more) = passed here steps ++ passed (reached here steps) more := by
  induction steps generalizing here with
  | nil => rfl
  | cons step steps ih => rw [List.cons_append, passed, passed, ih]; rfl

/-- A way of two parts ends where the second part ends. -/
theorem reached_append (here : List String) (steps more : List (List Char)) :
    reached here (steps ++ more) = reached (reached here steps) more :=
  List.foldl_append

/-- The end of a way that takes a step is one of the places that it passes. -/
theorem reached_mem_passed {here : List String} {steps : List (List Char)} (h : steps ≠ []) :
    reached here steps ∈ passed here steps := by
  induction steps generalizing here with
  | nil => exact absurd rfl h
  | cons step steps ih =>
      cases steps with
      | nil => exact List.mem_singleton.2 rfl
      | cons step' steps =>
          exact List.mem_cons_of_mem _ (ih (List.cons_ne_nil step' steps))

/-! ## Steps in a tree -/

/-- A name that no file can have for its length. -/
def isTooLong (step : List Char) : Bool := maxName < Text.byteCount step

section

variable {t : FileTree} {here : List String} {step : List Char} {steps : List (List Char)}

/-- The top of a tree is a directory. -/
theorem node?_nil : t.node? [] = some .directory := if_pos rfl

theorem not_directory_of_none {n : List String} (h : t.node? n = none) :
    t.node? n ≠ some .directory := by
  rw [h]
  exact nofun

theorem not_directory_of_some {n : List String} {node : FileNode} (h : t.node? n = some node)
    (hnode : node ≠ .directory) : t.node? n ≠ some .directory := by
  rw [h]
  exact fun e => hnode (Option.some.inj e)

/-- At a place there is nothing, a directory, or something that no step leads out of. -/
theorem node?_cases (t : FileTree) (n : List String) :
    t.node? n = none ∨ t.node? n = some .directory ∨
      ∃ node, t.node? n = some node ∧ node ≠ .directory := by
  cases t.node? n with
  | none => exact .inl rfl
  | some node =>
      by_cases hdir : node = .directory
      · exact .inr (.inl (congrArg some hdir))
      · exact .inr (.inr ⟨node, rfl, hdir⟩)

/-- From a directory the next step is taken, unless it is too long. -/
theorem follow_cons_of_directory (h : t.node? here = some .directory) :
    t.follow (step :: steps) here =
      if isTooLong step then .error .nameTooLong else t.follow steps (moved here step) := by
  have hshort : step = [] ∨ step = ['.'] ∨ step = ['.', '.'] → isTooLong step = false := by
    rintro (rfl | rfl | rfl) <;> decide
  rw [follow, h]
  simp only [moved]
  by_cases hidle : step = [] ∨ step = ['.']
  · rw [if_pos hidle, if_pos hidle, hshort (by tauto)]
    rfl
  · rw [if_neg hidle, if_neg hidle]
    by_cases hup : step = ['.', '.']
    · rw [if_pos hup, if_pos hup, hshort (by tauto)]
      rfl
    · rw [if_neg hup, if_neg hup]
      simp only [isTooLong, decide_eq_true_eq]

/-- From a place where nothing is no step is taken. -/
theorem follow_cons_of_none (h : t.node? here = none) :
    t.follow (step :: steps) here = .error .notFound := by
  rw [follow, h]

/-- From a file no step is taken. -/
theorem follow_cons_of_file {node : FileNode} (h : t.node? here = some node)
    (hnode : node ≠ .directory) : t.follow (step :: steps) here = .error .notDirectory := by
  cases node with
  | directory => exact absurd rfl hnode
  | file text => rw [follow, h]
  | noText => rw [follow, h]

/-- Where a step can be taken there is a directory. -/
theorem directory_of_follow {n : List String} (h : t.follow (step :: steps) here = .ok n) :
    t.node? here = some .directory := by
  rcases t.node?_cases here with hnode | hnode | ⟨node, hnode, hother⟩
  · rw [follow_cons_of_none hnode] at h
    cases h
  · exact hnode
  · rw [follow_cons_of_file hnode hother] at h
    cases h

/-- A way of two parts is followed one part after the other. -/
theorem follow_append {more : List (List Char)} :
    t.follow (steps ++ more) here = (t.follow steps here).bind fun n => t.follow more n := by
  induction steps generalizing here with
  | nil => rfl
  | cons step steps ih =>
      rw [List.cons_append]
      rcases t.node?_cases here with hnode | hnode | ⟨node, hnode, hother⟩
      · rw [follow_cons_of_none hnode, follow_cons_of_none hnode]
        rfl
      · rw [follow_cons_of_directory hnode, follow_cons_of_directory hnode, ih]
        split <;> rfl
      · rw [follow_cons_of_file hnode hother, follow_cons_of_file hnode hother]
        rfl

/-- A way of two parts can be followed when the first part can, and the second from where it
ends. -/
theorem follow_append_eq_ok {n : List String} {more : List (List Char)} :
    t.follow (steps ++ more) here = .ok n ↔
      ∃ m, t.follow steps here = .ok m ∧ t.follow more m = .ok n := by
  rw [follow_append]
  exact Outcome.bind_eq_ok

/-- Where steps can be followed they lead to the place that they reach. -/
theorem eq_reached_of_follow {n : List String} (h : t.follow steps here = .ok n) :
    n = reached here steps := by
  induction steps generalizing here with
  | nil => exact (Except.ok.inj h).symm
  | cons step steps ih =>
      rw [follow_cons_of_directory (directory_of_follow h)] at h
      split at h
      · cases h
      · exact ih h

end

/-! ## Paths in a tree -/

section

variable {t : FileTree} {p : Path}

/-- A path with a NUL in it leads nowhere. -/
theorem locate_of_nul (h : '\x00' ∈ p.text.toList) : t.locate p = .error .nulInName := by
  unfold locate
  simp [h]

/-- The empty path leads nowhere. -/
theorem locate_of_empty (h : p.text = "") : t.locate p = .error .notFound := by
  unfold locate
  simp [h]

theorem locate_eq (hne : p.text ≠ "") (hnul : '\x00' ∉ p.text.toList) :
    t.locate p = t.follow p.segments (t.origin p.isAbsolute) := by
  have hlist : p.text.toList ≠ [] := fun e => hne (String.ext e)
  unfold locate Path.segments origin Path.isAbsolute
  simp only [List.contains_eq_mem, hnul, decide_false, Bool.false_eq_true, if_false]
  cases hcs : p.text.toList with
  | nil => exact absurd hcs hlist
  | cons c rest => by_cases hc : c = '/' <;> simp [hc]

/-- A path that leads somewhere has a text without the character that no name can have, and its
steps can be followed. -/
theorem follow_of_locate {n : List String} (h : t.locate p = .ok n) :
    p.text ≠ "" ∧ '\x00' ∉ p.text.toList ∧
      t.follow p.segments (t.origin p.isAbsolute) = .ok n := by
  have hnul : '\x00' ∉ p.text.toList := fun hnul => by
    rw [locate_of_nul hnul] at h
    cases h
  have hne : p.text ≠ "" := fun hne => by
    rw [locate_of_empty hne] at h
    cases h
  rw [locate_eq hne hnul] at h
  exact ⟨hne, hnul, h⟩

/-- The place that a path leads to is told by its steps alone. -/
theorem eq_place_of_locate {n : List String} (h : t.locate p = .ok n) : n = t.place p :=
  eq_reached_of_follow (follow_of_locate h).2.2

/-- What is at a path is what is in the place that it leads to. -/
theorem at?_of_locate {n : List String} (h : t.locate p = .ok n) : t.at? p = t.node? n := by
  unfold at?
  rw [h]

/-- Nothing is at a path that leads nowhere. -/
theorem at?_of_not_located {e : FileError} (h : t.locate p = .error e) : t.at? p = none := by
  unfold at?
  rw [h]

/-- A path at which there is something leads to its place. -/
theorem locate_of_at? {node : FileNode} (h : t.at? p = some node) :
    t.locate p = .ok (t.place p) ∧ t.node? (t.place p) = some node := by
  cases hlocate : t.locate p with
  | error e =>
      rw [at?_of_not_located hlocate] at h
      cases h
  | ok n =>
      rw [at?_of_locate hlocate] at h
      rw [← eq_place_of_locate hlocate]
      exact ⟨rfl, h⟩

end

/-! ## Well-formed trees -/

/-- A map from places to what there is: places are stored once, under names that a file can have, in
directories that are there; and the working directory is one of these. -/
structure WellFormed (t : FileTree) : Prop where
  nodup : (t.nodes.map Prod.fst).Nodup
  named : ∀ entry ∈ t.nodes, entry.1 ≠ [] ∧ ∀ name ∈ entry.1,
    Path.IsName name ∧ '\x00' ∉ name.toList ∧ isTooLong name.toList = false
  inDirectory : ∀ entry ∈ t.nodes, t.node? entry.1.dropLast = some .directory
  working : t.node? t.workingDirectory = some .directory

instance (name : String) : Decidable (Path.IsName name) :=
  decidable_of_iff (name ≠ "" ∧ name ≠ "." ∧ name ≠ ".." ∧ '/' ∉ name.toList)
    ⟨fun ⟨hempty, hcurrent, hparent, hslash⟩ => ⟨hempty, hcurrent, hparent, hslash⟩,
      fun ⟨hempty, hcurrent, hparent, hslash⟩ => ⟨hempty, hcurrent, hparent, hslash⟩⟩

instance (t : FileTree) : Decidable t.WellFormed :=
  decidable_of_iff ((t.nodes.map Prod.fst).Nodup ∧
      (∀ entry ∈ t.nodes, entry.1 ≠ [] ∧ ∀ name ∈ entry.1,
        Path.IsName name ∧ '\x00' ∉ name.toList ∧ isTooLong name.toList = false) ∧
      (∀ entry ∈ t.nodes, t.node? entry.1.dropLast = some .directory) ∧
      t.node? t.workingDirectory = some .directory)
    ⟨fun ⟨hnodup, hnamed, hdir, hworking⟩ => ⟨hnodup, hnamed, hdir, hworking⟩,
      fun ⟨hnodup, hnamed, hdir, hworking⟩ => ⟨hnodup, hnamed, hdir, hworking⟩⟩

/-- Steps lead up only out of directories that are there. -/
def UpFromDirectories (t : FileTree) (here : List String) : List (List Char) → Prop
  | [] => True
  | step :: steps =>
      (step = ['.', '.'] → t.node? here = some .directory) ∧
        t.UpFromDirectories (moved here step) steps

instance decidableUpFromDirectories (t : FileTree) (here : List String) :
    (steps : List (List Char)) → Decidable (t.UpFromDirectories here steps)
  | [] => isTrue trivial
  | step :: steps =>
      have := decidableUpFromDirectories t (moved here step) steps
      inferInstanceAs (Decidable (_ ∧ _))

/-- A path leads to a place of a tree when its steps lead up only out of directories of the tree. -/
structure LeadsTo (t : FileTree) (p : Path) : Prop where
  up : t.UpFromDirectories (t.origin p.isAbsolute) p.segments

instance (t : FileTree) (p : Path) : Decidable (t.LeadsTo p) :=
  decidable_of_iff (t.UpFromDirectories (t.origin p.isAbsolute) p.segments) ⟨.mk, LeadsTo.up⟩

section

variable {t : FileTree}

/-- A way of two parts steps up out of directories only when each of its parts does. -/
theorem upFromDirectories_append {here : List String} {steps more : List (List Char)} :
    t.UpFromDirectories here (steps ++ more) ↔
      t.UpFromDirectories here steps ∧ t.UpFromDirectories (reached here steps) more := by
  induction steps generalizing here with
  | nil => exact ⟨fun h => ⟨trivial, h⟩, And.right⟩
  | cons step steps ih =>
      rw [List.cons_append, UpFromDirectories, UpFromDirectories, ih, and_assoc]
      rfl

/-- A way without steps upwards steps up out of directories only. -/
theorem upFromDirectories_of_down {here : List String} {steps : List (List Char)}
    (h : ∀ s ∈ steps, s ≠ ['.', '.']) : t.UpFromDirectories here steps := by
  induction steps generalizing here with
  | nil => trivial
  | cons step steps ih =>
      exact ⟨fun e => absurd e (h step List.mem_cons_self),
        ih fun s hs => h s (List.mem_cons_of_mem _ hs)⟩

/-- Steps that can be followed are steps out of directories. -/
theorem upFromDirectories_of_follow {here n : List String} {steps : List (List Char)}
    (h : t.follow steps here = .ok n) : t.UpFromDirectories here steps := by
  induction steps generalizing here with
  | nil => trivial
  | cons step steps ih =>
      have hdir := directory_of_follow h
      rw [follow_cons_of_directory hdir] at h
      split at h
      · cases h
      · exact ⟨fun _ => hdir, ih h⟩

theorem node?_of_ne_nil {n : List String} (h : n ≠ []) : t.node? n = t.nodes.lookup n := if_neg h

/-- In a well-formed tree every way starts in a directory. -/
theorem WellFormed.node?_origin (ht : t.WellFormed) (absolute : Bool) :
    t.node? (t.origin absolute) = some .directory := by
  unfold origin
  split
  · exact node?_nil
  · exact ht.working

theorem mem_nodes_of_lookup {n : List String} {node : FileNode}
    (h : t.nodes.lookup n = some node) : (n, node) ∈ t.nodes := by
  generalize t.nodes = nodes at h
  induction nodes with
  | nil => cases h
  | cons entry nodes ih =>
      rw [List.lookup_cons] at h
      split at h
      · next heq =>
          cases h
          rw [beq_iff_eq.1 heq]
          exact List.mem_cons_self
      · exact List.mem_cons_of_mem _ (ih h)

/-- In a well-formed tree there is one entry for each place. -/
theorem WellFormed.node?_of_mem (ht : t.WellFormed) {n : List String} {node : FileNode}
    (h : (n, node) ∈ t.nodes) : t.node? n = some node := by
  rw [node?_of_ne_nil (ht.named _ h).1]
  have hnodup := ht.nodup
  generalize t.nodes = nodes at h hnodup
  induction nodes with
  | nil => exact absurd h List.not_mem_nil
  | cons entry nodes ih =>
      rw [List.map_cons, List.nodup_cons] at hnodup
      rw [List.lookup_cons]
      rcases List.mem_cons.1 h with rfl | h
      · rw [beq_self_eq_true]
      · -- Every place is stored once.
        have hother : (n == entry.1) = false := by
          refine beq_eq_false_iff_ne.2 fun e => hnodup.1 ?_
          rw [← e]
          exact List.mem_map_of_mem h
        rw [hother]
        exact ih h hnodup.2

/-- What there is is in a directory. -/
theorem WellFormed.node?_dropLast (ht : t.WellFormed) {n : List String} {node : FileNode}
    (h : t.node? n = some node) : t.node? n.dropLast = some .directory := by
  by_cases hn : n = []
  · rw [hn]
    exact node?_nil
  · rw [node?_of_ne_nil hn] at h
    exact ht.inDirectory _ (mem_nodes_of_lookup h)

/-- What there is has a directory at every place above it. -/
theorem WellFormed.node?_of_append (ht : t.WellFormed) {n more : List String} {node : FileNode}
    (h : t.node? (n ++ more) = some node) (hmore : more ≠ []) : t.node? n = some .directory := by
  induction more using List.reverseRecOn generalizing node with
  | nil => exact absurd rfl hmore
  | append_singleton more name ih =>
      have hdir := ht.node?_dropLast h
      rw [← List.append_assoc, List.dropLast_concat] at hdir
      by_cases hnil : more = []
      · rwa [hnil, List.append_nil] at hdir
      · exact ih hdir hnil

/-- A place below one without a directory has no directory. -/
theorem WellFormed.node?_of_not_directory (ht : t.WellFormed) {n : List String}
    (h : t.node? n ≠ some .directory) (name : String) : t.node? (n ++ [name]) = none := by
  cases hnode : t.node? (n ++ [name]) with
  | none => rfl
  | some node =>
      have hdir := ht.node?_dropLast hnode
      rw [List.dropLast_concat] at hdir
      exact absurd hdir h

/-- From a place without a directory steps lead down only, to places where there is nothing. -/
theorem WellFormed.passed_of_not_directory (ht : t.WellFormed) {here : List String}
    {steps : List (List Char)} (hup : t.UpFromDirectories here steps)
    (h : t.node? here ≠ some .directory) :
    here <+: reached here steps ∧ ∀ n ∈ passed here steps, n = here ∨ t.node? n = none := by
  induction steps generalizing here with
  | nil => exact ⟨List.prefix_rfl, fun n hn => absurd hn List.not_mem_nil⟩
  | cons step steps ih =>
      -- To step up there would have to be a directory.
      obtain hstay | ⟨name, hdown⟩ :
          moved here step = here ∨ ∃ name, moved here step = here ++ [name] := by
        unfold moved
        split
        · exact .inl rfl
        · rw [if_neg fun e => h (hup.1 e)]
          exact .inr ⟨_, rfl⟩
      · obtain ⟨hbelow, hrest⟩ := ih hup.2 (by rwa [hstay])
        rw [hstay] at hbelow hrest
        refine ⟨by rwa [reached, List.foldl_cons, hstay], fun n hn => ?_⟩
        rcases List.mem_cons.1 hn with rfl | hn
        · exact .inl hstay
        · rw [hstay] at hn
          exact hrest n hn
      · have hnone := ht.node?_of_not_directory h name
        rw [← hdown] at hnone
        obtain ⟨hbelow, hrest⟩ := ih hup.2 (not_directory_of_none hnone)
        refine ⟨?_, fun n hn => ?_⟩
        · have hhere : here <+: moved here step := by
            rw [hdown]
            exact List.prefix_append here [name]
          exact hhere.trans hbelow
        · rcases List.mem_cons.1 hn with rfl | hn
          · exact .inr hnone
          · rcases hrest n hn with rfl | hn
            · exact .inr hnone
            · exact .inr hn

/-- The places without a directory that steps pass are on the way down to where they lead. -/
theorem WellFormed.prefix_of_mem_passed (ht : t.WellFormed) {here n : List String}
    {steps : List (List Char)} (hup : t.UpFromDirectories here steps) (hn : n ∈ passed here steps)
    (h : t.node? n ≠ some .directory) : n <+: reached here steps := by
  induction steps generalizing here with
  | nil => exact absurd hn List.not_mem_nil
  | cons step steps ih =>
      rcases List.mem_cons.1 hn with rfl | hn
      · exact (ht.passed_of_not_directory hup.2 h).1
      · exact ih hup.2 hn

/-- Where there is nothing, steps pass nothing and lead to nothing. -/
theorem WellFormed.none_of_passed (ht : t.WellFormed) {here : List String}
    {steps : List (List Char)} (hup : t.UpFromDirectories here steps)
    (hnone : t.node? here = none) :
    (∀ n ∈ passed here steps, t.node? n = none) ∧ t.node? (reached here steps) = none := by
  have hpassed : ∀ n ∈ passed here steps, t.node? n = none := by
    intro n hn
    have hfree := not_directory_of_none hnone
    rcases (ht.passed_of_not_directory hup hfree).2 n hn with rfl | hn
    · exact hnone
    · exact hn
  refine ⟨hpassed, ?_⟩
  cases steps with
  | nil => exact hnone
  | cons step steps => exact hpassed _ (reached_mem_passed (List.cons_ne_nil step steps))

/-- Where steps cannot be followed for something that is missing, they pass no file, and there is
nothing at their end. -/
theorem WellFormed.free_of_notFound (ht : t.WellFormed) {here : List String}
    {steps : List (List Char)} (hup : t.UpFromDirectories here steps)
    (hhere : t.node? here = some .directory) (h : t.follow steps here = .error .notFound) :
    (∀ n ∈ passed here steps, t.node? n = none ∨ t.node? n = some .directory) ∧
      t.node? (reached here steps) = none := by
  induction steps generalizing here with
  | nil => cases h
  | cons step steps ih =>
      rw [follow_cons_of_directory hhere] at h
      split at h
      · cases h
      rcases t.node?_cases (moved here step) with hnode | hnode | ⟨node, hnode, hother⟩
      · obtain ⟨hpassed, hend⟩ := ht.none_of_passed hup.2 hnode
        exact ⟨List.forall_mem_cons.2 ⟨.inl hnode, fun n hn => .inl (hpassed n hn)⟩, hend⟩
      · obtain ⟨hfree, hend⟩ := ih hup.2 hnode h
        exact ⟨List.forall_mem_cons.2 ⟨.inr hnode, hfree⟩, hend⟩
      · -- A file can only be the last of what is passed, and then it is found.
        cases steps with
        | nil => cases h
        | cons step' steps =>
            rw [follow_cons_of_file hnode hother] at h
            cases h

end

/-! ## Kept directories -/

/-- A tree that has the directories of another one, and no directory where that has something
else. -/
structure Keeps (t t' : FileTree) : Prop where
  working : t'.workingDirectory = t.workingDirectory
  directory : ∀ n, t.node? n = some .directory → t'.node? n = some .directory
  not_directory : ∀ n node, t.node? n = some node → node ≠ .directory →
    ∃ node', t'.node? n = some node' ∧ node' ≠ .directory

namespace Keeps

variable {t t' : FileTree} {p : Path}

/-- A tree with the same directories has its ways start in the same places. -/
theorem origin_eq (h : Keeps t t') (absolute : Bool) : t'.origin absolute = t.origin absolute := by
  unfold origin
  rw [h.working]

/-- A tree with the directories of a well-formed one has every way start in a directory. -/
theorem node?_origin (h : Keeps t t') (ht : t.WellFormed) (absolute : Bool) :
    t'.node? (t'.origin absolute) = some .directory := by
  rw [h.origin_eq]
  exact h.directory _ (ht.node?_origin absolute)

theorem place_eq (h : Keeps t t') (p : Path) : t'.place p = t.place p := by
  unfold place
  rw [h.origin_eq]

/-- What can be told about steps is told alike, unless something is missing on the way. -/
theorem follow_eq (h : Keeps t t') {steps : List (List Char)} {here : List String}
    (hfound : t.follow steps here ≠ .error .notFound) :
    t'.follow steps here = t.follow steps here := by
  induction steps generalizing here with
  | nil => rfl
  | cons step steps ih =>
      rcases t.node?_cases here with hnode | hnode | ⟨node, hnode, hother⟩
      · exact absurd (follow_cons_of_none hnode) hfound
      · rw [follow_cons_of_directory hnode] at hfound ⊢
        rw [follow_cons_of_directory (h.directory here hnode)]
        split
        · rfl
        · next hshort =>
            rw [if_neg hshort] at hfound
            exact ih hfound
      · obtain ⟨node', hnode', hother'⟩ := h.not_directory here node hnode hother
        rw [follow_cons_of_file hnode hother, follow_cons_of_file hnode' hother']

theorem locate_eq (h : Keeps t t') (hfound : t.locate p ≠ .error .notFound) :
    t'.locate p = t.locate p := by
  by_cases hnul : '\x00' ∈ p.text.toList
  · rw [locate_of_nul hnul, locate_of_nul hnul]
  · by_cases hne : p.text = ""
    · exact absurd (locate_of_empty hne) hfound
    · rw [FileTree.locate_eq hne hnul] at hfound ⊢
      rw [FileTree.locate_eq hne hnul, h.origin_eq]
      exact h.follow_eq hfound

end Keeps

/-! ## Grown trees -/

/-- A tree that came from another by making directories above the places of some paths, where there
was nothing, and by writing files at these places, where there was no directory. -/
structure Grown (ps : List Path) (t t' : FileTree) : Prop where
  working : t'.workingDirectory = t.workingDirectory
  node : ∀ n, t'.node? n = t.node? n ∨
    (t.node? n = none ∧ t'.node? n = some .directory ∧ ∃ p ∈ ps, n <+: t.place p) ∨
    (t.node? n ≠ some .directory ∧ (∃ text, t'.node? n = some (.file text)) ∧
      ∃ p ∈ ps, n = t.place p)

namespace Grown

variable {ps qs : List Path} {p : Path} {t t' t'' : FileTree} {n : List String}

/-- A tree has grown by nothing from itself. -/
theorem refl (ps : List Path) (t : FileTree) : Grown ps t t := ⟨rfl, fun _ => .inl rfl⟩

/-- Directories stay, and what is no directory stays so. -/
theorem keeps (h : Grown ps t t') : Keeps t t' := by
  refine ⟨h.working, fun n hn => ?_, fun n node hn hnode => ?_⟩
  · rcases h.node n with hsame | ⟨hnone, -⟩ | ⟨hnot, -⟩
    · exact hsame.trans hn
    · rw [hn] at hnone
      cases hnone
    · exact absurd hn hnot
  · rcases h.node n with hsame | ⟨hnone, -⟩ | ⟨-, ⟨text, hfile⟩, -⟩
    · exact ⟨node, hsame.trans hn, hnode⟩
    · rw [hn] at hnone
      cases hnone
    · exact ⟨.file text, hfile, nofun⟩

theorem place_eq (h : Grown ps t t') (p : Path) : t'.place p = t.place p := h.keeps.place_eq p

/-- What grows twice has grown by the paths of both times. -/
theorem trans (h : Grown ps t t') (h' : Grown qs t' t'') : Grown (ps ++ qs) t t'' := by
  refine ⟨h'.working.trans h.working, fun n => ?_⟩
  have hleft : ∀ p ∈ ps, p ∈ ps ++ qs := fun p hp => List.mem_append_left qs hp
  have hright : ∀ p ∈ qs, p ∈ ps ++ qs := fun p hp => List.mem_append_right ps hp
  rcases h'.node n with hsame | ⟨hnone, hdir, q, hq, habove⟩ | ⟨hnot, hfile, q, hq, hplace⟩
  · rcases h.node n with h | ⟨hnone, hdir, p, hp, habove⟩ | ⟨hnot, ⟨text, hfile⟩, p, hp, hplace⟩
    · exact .inl (hsame.trans h)
    · exact .inr (.inl ⟨hnone, hsame.trans hdir, p, hleft p hp, habove⟩)
    · exact .inr (.inr ⟨hnot, ⟨text, hsame.trans hfile⟩, p, hleft p hp, hplace⟩)
  · -- A directory is made where there is nothing, and then there was nothing before either.
    rw [h.place_eq] at habove
    rcases h.node n with h | ⟨-, hdir', -⟩ | ⟨-, ⟨text, hfile⟩, -⟩
    · exact .inr (.inl ⟨h.symm.trans hnone, hdir, q, hright q hq, habove⟩)
    · rw [hdir'] at hnone
      cases hnone
    · rw [hfile] at hnone
      cases hnone
  · rw [h.place_eq] at hplace
    rcases h.node n with h | ⟨-, hdir, -⟩ | ⟨hnot', -⟩
    · exact .inr (.inr ⟨fun e => hnot (h.trans e), hfile, q, hright q hq, hplace⟩)
    · exact absurd hdir hnot
    · exact .inr (.inr ⟨hnot', hfile, q, hright q hq, hplace⟩)

/-- Where there is nothing now there was nothing before. -/
theorem eq_none (h : Grown ps t t') (hn : t'.node? n = none) : t.node? n = none := by
  rcases h.node n with hsame | ⟨hnone, -⟩ | ⟨-, ⟨text, hfile⟩, -⟩
  · rw [← hsame, hn]
  · exact hnone
  · rw [hfile] at hn
    cases hn

/-- Away from the places and from what is above them nothing has changed. -/
theorem node?_eq (h : Grown ps t t') (hn : ∀ p ∈ ps, ¬ n <+: t.place p) :
    t'.node? n = t.node? n := by
  rcases h.node n with hsame | ⟨-, -, p, hp, habove⟩ | ⟨-, -, p, hp, rfl⟩
  · exact hsame
  · exact absurd habove (hn p hp)
  · exact absurd List.prefix_rfl (hn p hp)

/-- A file whose place is none of the places is as it was. -/
theorem node?_eq_of_some (h : Grown ps t t') {node : FileNode} (hn : t.node? n = some node)
    (hplace : ∀ p ∈ ps, n ≠ t.place p) : t'.node? n = some node := by
  rcases h.node n with hsame | ⟨hnone, -⟩ | ⟨-, -, p, hp, heq⟩
  · exact hsame.trans hn
  · rw [hn] at hnone
    cases hnone
  · exact absurd heq (hplace p hp)

/-- No file comes where there was none, other than at the places. -/
theorem free (h : Grown ps t t') (hn : t.node? n = none ∨ t.node? n = some .directory)
    (hplace : t.node? n = none → ∀ p ∈ ps, n ≠ t.place p) :
    t'.node? n = none ∨ t'.node? n = some .directory := by
  rcases hn with hn | hn
  · rcases h.node n with hsame | ⟨-, hdir, -⟩ | ⟨-, -, p, hp, heq⟩
    · exact .inl (hsame.trans hn)
    · exact .inr hdir
    · exact absurd heq (hplace hn p hp)
  · exact .inr (h.keeps.directory n hn)

/-- What there is at a path is the same, where the place of the path is none of the places or above
one. -/
theorem at?_eq (h : Grown ps t t') (ht : t.WellFormed) (hleads : t.LeadsTo p)
    (hplace : ∀ q ∈ ps, ¬ t.place p <+: t.place q) : t'.at? p = t.at? p := by
  by_cases hfound : t.locate p = .error .notFound
  · rw [at?_of_not_located hfound]
    cases hlocate : t'.locate p with
    | error e => exact at?_of_not_located hlocate
    | ok n =>
        -- The path leads there now, through directories that were made, to where nothing was.
        obtain ⟨hne, hnul, -⟩ := follow_of_locate hlocate
        rw [FileTree.locate_eq hne hnul] at hfound
        have hnone : t.node? (t.place p) = none :=
          (ht.free_of_notFound hleads.up (ht.node?_origin _) hfound).2
        rw [at?_of_locate hlocate, eq_place_of_locate hlocate, h.place_eq, h.node?_eq hplace, hnone]
  · have hsame := h.keeps.locate_eq hfound
    cases hlocate : t.locate p with
    | error e =>
        rw [hlocate] at hsame
        rw [at?_of_not_located hlocate, at?_of_not_located hsame]
    | ok n =>
        rw [hlocate] at hsame
        have hn := eq_place_of_locate hlocate
        rw [at?_of_locate hlocate, at?_of_locate hsame, hn, h.node?_eq hplace]

/-- A file whose place is none of the places stays. -/
theorem locate_file (h : Grown ps t t') {node : FileNode} (hp : t.at? p = some node)
    (hplace : ∀ q ∈ ps, t.place p ≠ t.place q) :
    t'.locate p = .ok (t.place p) ∧ t'.node? (t.place p) = some node := by
  obtain ⟨hlocate, hnode⟩ := locate_of_at? hp
  have hfound : t.locate p ≠ .error .notFound := by
    rw [hlocate]
    exact nofun
  exact ⟨(h.keeps.locate_eq hfound).trans hlocate, h.node?_eq_of_some hnode hplace⟩

/-- What is at a path stays there when the tree grows by paths that lead to other places. -/
theorem at?_eq_of_some (h : Grown ps t t') {node : FileNode} (hp : t.at? p = some node)
    (hplace : ∀ q ∈ ps, t.place p ≠ t.place q) : t'.at? p = some node := by
  obtain ⟨hlocate, hnode⟩ := h.locate_file hp hplace
  exact (at?_of_locate hlocate).trans hnode

/-- A file whose place is none of the places reads as before. -/
theorem read_eq (h : Grown ps t t') {node : FileNode} (hp : t.at? p = some node)
    (hplace : ∀ q ∈ ps, t.place p ≠ t.place q) : t'.read p = t.read p := by
  obtain ⟨hlocate, hnode⟩ := locate_of_at? hp
  obtain ⟨hlocate', hnode'⟩ := h.locate_file hp hplace
  unfold read
  rw [hlocate, hlocate']
  simp only [bind, Except.bind, hnode, hnode']

end Grown

end TypedSql.FileTree
