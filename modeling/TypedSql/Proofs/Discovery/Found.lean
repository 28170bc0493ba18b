import TypedSql.Discovery
import TypedSql.Proofs.Files.Named

namespace TypedSql

open TypedSql.Path FileTree

/-! # The files that are found

Paths are put in an order in which no two of them take the same steps, so every file is found once.
A file that is found in a tree is there and has the name of a SQL file.
-/

/-! ## The order of paths -/

namespace Component

variable {a b c : Component}

/-- Steps are ordered by their kinds, and names among each other by their texts. -/
theorem lt_iff : a.lt b = true ↔
    a.rank < b.rank ∨ ∃ s t, a = .name s ∧ b = .name t ∧ s < t := by
  cases a <;> cases b <;> simp [lt, rank]

/-- No step comes before itself. -/
theorem lt_irrefl (a : Component) : ¬ a.lt a = true := by
  rw [lt_iff]
  rintro (h | ⟨s, t, hs, ht, h⟩)
  · exact Nat.lt_irrefl _ h
  · obtain rfl : s = t := Component.name.inj (hs.symm.trans ht)
    exact String.lt_irrefl s h

theorem lt_trans (hab : a.lt b = true) (hbc : b.lt c = true) : a.lt c = true := by
  rw [lt_iff] at hab hbc ⊢
  rcases hab with hab | ⟨s, t, rfl, rfl, hst⟩
  · rcases hbc with hbc | ⟨s, t, rfl, rfl, -⟩
    · exact .inl (Nat.lt_trans hab hbc)
    · exact .inl hab
  · rcases hbc with hbc | ⟨s', t', hs', rfl, hst'⟩
    · exact .inl hbc
    · obtain rfl : t = s' := Component.name.inj hs'
      exact .inr ⟨s, t', rfl, rfl, String.lt_trans hst hst'⟩

/-- Steps of one kind are the same or both names. -/
theorem eq_of_rank (h : a.rank = b.rank) : a = b ∨ ∃ s t, a = .name s ∧ b = .name t := by
  cases a <;> cases b <;> simp_all [rank]

/-- Of two components one comes first. -/
theorem lt_or_lt (h : a ≠ b) : a.lt b = true ∨ b.lt a = true := by
  rw [lt_iff, lt_iff]
  rcases Nat.lt_trichotomy a.rank b.rank with hrank | hrank | hrank
  · exact .inl (.inl hrank)
  · obtain rfl | ⟨s, t, rfl, rfl⟩ := eq_of_rank hrank
    · exact absurd rfl h
    · by_cases hst : s < t
      · exact .inl (.inr ⟨s, t, rfl, rfl, hst⟩)
      · refine .inr (.inr ⟨t, s, rfl, rfl, Classical.byContradiction fun hts => h ?_⟩)
        exact congrArg name (String.le_antisymm (String.not_lt.1 hts) (String.not_lt.1 hst))
  · exact .inr (.inl hrank)

end Component

namespace Path

section

variable {xs ys zs : List Component}

/-- Rows of steps are ordered by the first step in which they differ. -/
theorem go_cons_iff {x y : Component} :
    lt.go (x :: xs) (y :: ys) = true ↔ (x = y ∧ lt.go xs ys = true) ∨ x.lt y = true := by
  rw [lt.go]
  by_cases h : x = y
  · rw [if_pos h, h]
    simp [Component.lt_irrefl]
  · rw [if_neg h]
    simp [h]

/-- No row of steps comes before itself. -/
theorem go_irrefl (xs : List Component) : ¬ lt.go xs xs = true := by
  induction xs with
  | nil => exact nofun
  | cons x xs ih =>
      rw [go_cons_iff]
      rintro (⟨-, h⟩ | h)
      · exact ih h
      · exact Component.lt_irrefl x h

theorem go_trans (hxy : lt.go xs ys = true) (hyz : lt.go ys zs = true) : lt.go xs zs = true := by
  induction xs generalizing ys zs with
  | nil =>
      cases zs with
      | nil => cases ys <;> cases hyz
      | cons z zs => rfl
  | cons x xs ih =>
      cases ys with
      | nil => cases hxy
      | cons y ys =>
          cases zs with
          | nil => cases hyz
          | cons z zs =>
              rw [go_cons_iff] at hxy hyz ⊢
              -- The first difference of either pair decides.
              rcases hxy with ⟨rfl, hxy⟩ | hxy
              · exact hyz.imp_left fun ⟨heq, hyz⟩ => ⟨heq, ih hxy hyz⟩
              · rcases hyz with ⟨rfl, -⟩ | hyz
                · exact .inr hxy
                · exact .inr (Component.lt_trans hxy hyz)

/-- Of two rows of steps that differ one comes first. -/
theorem go_or_go (h : xs ≠ ys) : lt.go xs ys = true ∨ lt.go ys xs = true := by
  induction xs generalizing ys with
  | nil =>
      cases ys with
      | nil => exact absurd rfl h
      | cons y ys => exact .inl rfl
  | cons x xs ih =>
      cases ys with
      | nil => exact .inr rfl
      | cons y ys =>
          rw [go_cons_iff, go_cons_iff]
          by_cases hxy : x = y
          · have hrest := ih fun e => h (by rw [hxy, e])
            exact hrest.imp (fun h => .inl ⟨hxy, h⟩) fun h => .inl ⟨hxy.symm, h⟩
          · exact (Component.lt_or_lt hxy).imp .inr .inr

end

/-! ## Paths in order -/

section

variable {p q r : Path}

theorem lt_trans (hpq : p.lt q = true) (hqr : q.lt r = true) : p.lt r = true := go_trans hpq hqr

/-- Of two paths at most one comes first. -/
theorem not_lt_of_lt (h : p.lt q = true) : ¬ q.lt p = true := fun hback =>
  go_irrefl _ (lt_trans h hback)

/-- Of two paths with different steps one comes first. -/
theorem lt_of_not_lt (h : ¬ q.lt p = true) (hne : p.components ≠ q.components) : p.lt q = true :=
  (go_or_go hne).resolve_right h

/-- A path before one that is not behind another is before the other. -/
theorem lt_of_lt_of_not_lt (hpq : p.lt q = true) (hqr : ¬ r.lt q = true) : p.lt r = true := by
  by_cases hne : q.components = r.components
  · unfold lt at hpq ⊢
    rwa [← hne]
  · exact lt_trans hpq (lt_of_not_lt hqr hne)

end

end Path

namespace Discovery

/-- Leaving out repetitions adds nothing. -/
theorem dropRepeats_subset (paths : List Path) : dropRepeats paths ⊆ paths := by
  fun_induction dropRepeats paths with
  | case1 => exact List.Subset.refl _
  | case2 p => exact List.Subset.refl _
  | case3 p q rest heq ih =>
      intro r hr
      rcases List.mem_cons.1 (ih hr) with rfl | hr
      · exact List.mem_cons_self
      · exact List.mem_cons_of_mem _ (List.mem_cons_of_mem _ hr)
  | case4 p q rest hne ih =>
      intro r hr
      rcases List.mem_cons.1 hr with rfl | hr
      · exact List.mem_cons_self
      · exact List.mem_cons_of_mem _ (ih hr)

/-- Dropping the repeats of paths in order leaves each after the one before it. -/
theorem pairwise_dropRepeats {paths : List Path}
    (h : paths.Pairwise fun p q => ¬ q.lt p = true) :
    (dropRepeats paths).Pairwise fun p q => p.lt q = true := by
  fun_induction dropRepeats paths with
  | case1 => exact .nil
  | case2 p => exact List.pairwise_singleton _ p
  | case3 p q rest heq ih =>
      rw [List.pairwise_cons, List.pairwise_cons] at h
      exact ih (List.pairwise_cons.2 ⟨fun r hr => h.1 r (List.mem_cons_of_mem _ hr), h.2.2⟩)
  | case4 p q rest hne ih =>
      rw [List.pairwise_cons] at h
      refine List.pairwise_cons.2 ⟨fun r hr => ?_, ih h.2⟩
      have hpq : p.lt q = true := lt_of_not_lt (h.1 q List.mem_cons_self) hne
      rcases List.mem_cons.1 (dropRepeats_subset _ hr) with rfl | hr
      · exact hpq
      · exact lt_of_lt_of_not_lt hpq ((List.pairwise_cons.1 h.2).1 r hr)

/-- Leaving out repetitions leaves something, if there was anything. -/
theorem dropRepeats_ne_nil {paths : List Path} (h : paths ≠ []) : dropRepeats paths ≠ [] := by
  fun_induction dropRepeats paths with
  | case1 => exact absurd rfl h
  | case2 p => exact List.cons_ne_nil p []
  | case3 p q rest heq ih => exact ih (List.cons_ne_nil p rest)
  | case4 p q rest hne ih => exact List.cons_ne_nil p _

/-- Paths in order are among the paths. -/
theorem mem_of_mem_inOrder {paths : List Path} {p : Path} (h : p ∈ inOrder paths) : p ∈ paths :=
  List.mem_mergeSort.1 (dropRepeats_subset _ h)

/-- Paths in order are strictly in order. -/
theorem pairwise_inOrder (paths : List Path) :
    (inOrder paths).Pairwise fun p q => p.lt q = true := by
  have htrans : ∀ p q r : Path, (!q.lt p) = true → (!r.lt q) = true → (!r.lt p) = true := by
    intro p q r hpq hqr
    simp only [Bool.not_eq_true', Bool.eq_false_iff] at hpq hqr ⊢
    exact fun hrp => hqr (lt_of_lt_of_not_lt hrp hpq)
  have htotal : ∀ p q : Path, (!q.lt p || !p.lt q) = true := by
    intro p q
    simp only [Bool.or_eq_true, Bool.not_eq_true', Bool.eq_false_iff]
    by_cases hpq : p.lt q = true
    · exact .inl (not_lt_of_lt hpq)
    · exact .inr hpq
  refine pairwise_dropRepeats ((List.pairwise_mergeSort htrans htotal paths).imp fun h => ?_)
  simpa using h

/-- A path that comes before another takes other steps. -/
theorem components_ne_of_lt {p q : Path} (h : p.lt q = true) : p.components ≠ q.components := by
  intro heq
  unfold lt at h
  rw [heq] at h
  exact go_irrefl _ h

/-- Paths that are strictly in order are left as they are. -/
theorem inOrder_of_pairwise {paths : List Path} (h : paths.Pairwise fun p q => p.lt q = true) :
    inOrder paths = paths := by
  have hsorted : paths.Pairwise fun p q => (!q.lt p) = true :=
    h.imp fun hpq => by simpa using not_lt_of_lt hpq
  rw [inOrder, List.mergeSort_of_pairwise hsorted]
  clear hsorted
  fun_induction dropRepeats paths with
  | case1 => rfl
  | case2 p => rfl
  | case3 p q rest heq ih =>
      have hpq := (List.pairwise_cons.1 h).1 q List.mem_cons_self
      exact absurd heq (components_ne_of_lt hpq)
  | case4 p q rest hne ih => rw [ih (List.pairwise_cons.1 h).2]

/-! ## Files that are looked at -/

section

variable {σ : Type} [FileAccess (StateM σ)]

/-- The files that are met below a root. -/
def metBelow (files : σ) (root : Path) : List Path :=
  (StateT.run (FileAccess.filesBelow root : StateM σ (List Path)) files).1

/-- What is found, when looking at files leaves them as they are. -/
theorem run_sqlFiles_of_look
    (hlook : ∀ root files, (StateT.run (FileAccess.filesBelow root : StateM σ _) files).2 = files)
    (roots : List Path) (files : σ) :
    StateT.run (sqlFiles roots : StateM σ _) files =
      (inOrder ((roots.flatMap (metBelow files)).filter isSql), files) := by
  have hfound : StateT.run (roots.mapM FileAccess.filesBelow : StateM σ _) files =
      (roots.map (metBelow files), files) := by
    induction roots with
    | nil => rfl
    | cons root roots ih =>
        have hfirst : StateT.run (FileAccess.filesBelow root : StateM σ _) files =
            (metBelow files root, files) := Prod.ext rfl (hlook root files)
        rw [List.mapM_cons, StateT.run_bind, hfirst]
        change StateT.run (roots.mapM FileAccess.filesBelow >>= fun more =>
          pure (metBelow files root :: more) : StateM σ _) files = _
        rw [StateT.run_bind, ih]
        rfl
  unfold sqlFiles
  rw [StateT.run_bind, hfound, List.flatMap_def]
  rfl

end

/-! ## Files in a tree -/

/-- The files that are found are the SQL files below the roots, in order and without repetitions. -/
theorem run_sqlFiles (roots : List Path) (t : FileTree) :
    run (sqlFiles roots) t = (inOrder ((roots.flatMap t.filesBelow).filter isSql), t) :=
  run_sqlFiles_of_look (fun _ _ => rfl) roots t

/-- Every file that is found is there, with the name of a SQL file, and no other one takes its
steps. -/
theorem found_sqlFiles {t : FileTree} (ht : t.WellFormed) (roots : List Path) :
    (run (sqlFiles roots) t).1.Pairwise (fun p q => p.lt q = true) ∧
      ∀ f ∈ (run (sqlFiles roots) t).1, isSql f = true ∧
        ∃ node, t.at? f = some node ∧ node ≠ .directory := by
  rw [run_sqlFiles]
  refine ⟨pairwise_inOrder _, fun f hf => ?_⟩
  obtain ⟨hfound, hsql⟩ := List.mem_filter.1 (mem_of_mem_inOrder hf)
  obtain ⟨root, -, hbelow⟩ := List.mem_flatMap.1 hfound
  exact ⟨hsql, ht.at?_of_mem_filesBelow hbelow⟩

/-- Below absolute roots the files are found under absolute paths. -/
theorem isAbsolute_of_mem_sqlFiles {t : FileTree} {roots : List Path}
    (hroots : ∀ root ∈ roots, root.isAbsolute = true) :
    ∀ f ∈ (run (sqlFiles roots) t).1, f.isAbsolute = true := by
  intro f hf
  rw [run_sqlFiles] at hf
  obtain ⟨root, hroot, hbelow⟩ := List.mem_flatMap.1 (List.mem_filter.1 (mem_of_mem_inOrder hf)).1
  obtain ⟨-, more, -, -, -, -, rfl⟩ := mem_filesBelow_iff.1 hbelow
  exact isAbsolute_foldl_join more (hroots root hroot)

/-- Below a SQL file only that file is found. -/
theorem run_sqlFiles_file {t : FileTree} (ht : t.WellFormed) {f : Path} (hsql : isSql f = true)
    {node : FileNode} (hf : t.at? f = some node) (hnode : node ≠ .directory) :
    run (sqlFiles [f]) t = ([f], t) := by
  have hmem : ∀ p, p ∈ ([f].flatMap t.filesBelow).filter isSql ↔ p = f := by
    intro p
    rw [List.mem_filter, List.flatMap_singleton, ht.mem_filesBelow_file hf hnode]
    exact ⟨And.left, fun e => ⟨e, e ▸ hsql⟩⟩
  rw [run_sqlFiles]
  generalize ([f].flatMap t.filesBelow).filter isSql = found at hmem
  have hall : ∀ p ∈ inOrder found, p = f := fun p hp => (hmem p).1 (mem_of_mem_inOrder hp)
  have hne : inOrder found ≠ [] := by
    refine dropRepeats_ne_nil fun hempty => ?_
    have hfound : f ∈ found.mergeSort fun a b => !b.lt a := List.mem_mergeSort.2 ((hmem f).2 rfl)
    rw [hempty] at hfound
    exact absurd hfound List.not_mem_nil
  have hsorted := pairwise_inOrder found
  -- Two of them would be in strict order.
  match hlist : inOrder found with
  | [] => exact absurd hlist hne
  | [p] => rw [hall p (by simp [hlist])]
  | p :: q :: rest =>
      rw [hlist, List.pairwise_cons] at hsorted
      have hlt := hsorted.1 q List.mem_cons_self
      rw [hall p (by simp [hlist]), hall q (by simp [hlist])] at hlt
      exact absurd hlt (not_lt_of_lt hlt)

end Discovery

end TypedSql
