import TypedSql.Proofs.Discovery.Found

namespace TypedSql.Discovery

open TypedSql.Path FileTree

/-! # Files below several roots

The files that are found are told by the set of the roots and by the set of the files below each of
them: neither the order in which these are met nor how often a file is met matters. Files are the
same here when their paths take the same steps, which is what paths are compared by.
-/

/-! ## Paths put in order -/

section

variable {paths others : List Path} {p q : Path}

/-- Of the paths that take the same steps one is left. -/
theorem exists_mem_dropRepeats (h : p ∈ paths) :
    ∃ q ∈ dropRepeats paths, q.components = p.components := by
  fun_induction dropRepeats paths generalizing p with
  | case1 => exact absurd h List.not_mem_nil
  | case2 r => exact ⟨p, h, rfl⟩
  | case3 r s rest heq ih =>
      rcases List.mem_cons.1 h with rfl | h
      · exact ih List.mem_cons_self
      · rcases List.mem_cons.1 h with rfl | h
        · -- The path that is dropped takes the same steps as the one before it.
          obtain ⟨q, hq, hcomponents⟩ := ih List.mem_cons_self
          exact ⟨q, hq, hcomponents.trans heq⟩
        · exact ih (List.mem_cons_of_mem _ h)
  | case4 r s rest hne ih =>
      rcases List.mem_cons.1 h with rfl | h
      · exact ⟨p, List.mem_cons_self, rfl⟩
      · obtain ⟨q, hq, hcomponents⟩ := ih h
        exact ⟨q, List.mem_cons_of_mem _ hq, hcomponents⟩

theorem exists_mem_inOrder (h : p ∈ paths) : ∃ q ∈ inOrder paths, q.components = p.components :=
  exists_mem_dropRepeats (List.mem_mergeSort.2 h)

theorem mem_components_inOrder {c : List Component} :
    c ∈ (inOrder paths).map components ↔ c ∈ paths.map components := by
  constructor
  · intro h
    obtain ⟨p, hp, rfl⟩ := List.mem_map.1 h
    exact List.mem_map_of_mem (mem_of_mem_inOrder hp)
  · intro h
    obtain ⟨p, hp, rfl⟩ := List.mem_map.1 h
    obtain ⟨q, hq, hcomponents⟩ := exists_mem_inOrder hp
    exact List.mem_map.2 ⟨q, hq, hcomponents⟩

theorem pairwise_components_inOrder (paths : List Path) :
    ((inOrder paths).map components).Pairwise fun c d => Path.lt.go c d = true :=
  List.pairwise_map.2 (pairwise_inOrder paths)

theorem nodup_components_inOrder (paths : List Path) :
    ((inOrder paths).map components).Nodup := by
  refine (pairwise_components_inOrder paths).imp ?_
  rintro c _ hlt rfl
  exact go_irrefl c hlt

/-- Paths in order are told by the set of steps that are taken. -/
theorem components_inOrder (h : ∀ c, c ∈ paths.map components ↔ c ∈ others.map components) :
    (inOrder paths).map components = (inOrder others).map components := by
  have hmem : ∀ c, c ∈ (inOrder paths).map components ↔ c ∈ (inOrder others).map components := by
    intro c
    rw [mem_components_inOrder, mem_components_inOrder, h]
  have hperm := (List.perm_ext_iff_of_nodup (nodup_components_inOrder paths)
    (nodup_components_inOrder others)).2 hmem
  refine hperm.eq_of_pairwise ?_ (pairwise_components_inOrder paths)
    (pairwise_components_inOrder others)
  intro c d _ _ hcd hdc
  exact absurd (go_trans hcd hdc) (go_irrefl c)

theorem eq_of_components (h : paths.map components = others.map components)
    (hsame : ∀ p ∈ paths, ∀ q ∈ others, p.components = q.components → p = q) : paths = others := by
  induction paths generalizing others with
  | nil => exact (List.map_eq_nil_iff.1 h.symm).symm
  | cons p paths ih =>
      obtain ⟨q, others, rfl, hq, hrest⟩ := List.map_eq_cons_iff.1 h.symm
      rw [hsame p List.mem_cons_self q List.mem_cons_self hq.symm]
      refine congrArg _ (ih hrest.symm fun p hp q hq => ?_)
      exact hsame p (List.mem_cons_of_mem _ hp) q (List.mem_cons_of_mem _ hq)

end

/-! ## Files whatever they are -/

section

variable {σ : Type} [FileAccess (StateM σ)] {files files' : σ} {roots roots' : List Path}

theorem mem_found_iff (hroots : ∀ root, root ∈ roots ↔ root ∈ roots')
    (hmet : ∀ root ∈ roots, ∀ f, f ∈ metBelow files root ↔ f ∈ metBelow files' root) (f : Path) :
    f ∈ (roots.flatMap (metBelow files)).filter isSql ↔
      f ∈ (roots'.flatMap (metBelow files')).filter isSql := by
  simp only [List.mem_filter, List.mem_flatMap]
  refine and_congr_left fun _ => exists_congr fun root => ?_
  rw [← hroots root]
  exact and_congr_right fun hroot => hmet root hroot f

/-- A file of a tree lies below a root: names that go on from the place of the root lead to it. -/
def IsFileBelow (t : FileTree) (root f : Path) : Prop :=
  ∃ n more node, t.locate root = .ok n ∧ t.node? (n ++ more) = some node ∧ node ≠ .directory ∧
    f = more.foldl (fun p name => p.join ⟨name⟩) root

theorem mem_metBelow_iff {t : FileTree} (ht : t.WellFormed) {root f : Path} :
    f ∈ metBelow t root ↔ IsFileBelow t root f := by
  change f ∈ t.filesBelow root ↔ _
  rw [mem_filesBelow_iff]
  refine exists_congr fun n => exists_congr fun more => exists_congr fun node => ?_
  refine and_congr_right fun _ => ⟨?_, ?_⟩
  · rintro ⟨hentry, hnode, hf⟩
    exact ⟨ht.node?_of_mem hentry, hnode, hf⟩
  · rintro ⟨hthere, hnode, hf⟩
    -- The top is a directory, so a file has names.
    have hne := ne_nil_of_not_directory (not_directory_of_some hthere hnode)
    rw [node?_of_ne_nil hne] at hthere
    exact ⟨mem_nodes_of_lookup hthere, hnode, hf⟩

/-- The files that are found are told by the set of the roots and the set of the files below each of
them, in whatever order and however often these are met. Their paths are strictly in order, and they
are the files below some root that have the name of a SQL file. Where no file is met in two
spellings the paths are the same as they are written, and not only in the steps that they take. In a
tree the files below a root are those to which names lead from there. -/
theorem sqlFiles_of_roots
    (hlook : ∀ root files, (StateT.run (FileAccess.filesBelow root : StateM σ _) files).2 = files)
    (hroots : ∀ root, root ∈ roots ↔ root ∈ roots')
    (hmet : ∀ root ∈ roots, ∀ f, f ∈ metBelow files root ↔ f ∈ metBelow files' root) :
    let found := StateT.run (sqlFiles roots : StateM σ _) files
    let found' := StateT.run (sqlFiles roots' : StateM σ _) files'
    found.2 = files ∧
      found.1.map components = found'.1.map components ∧
      (found.1.Pairwise fun p q => p.lt q = true) ∧
      (found.1.map components).Nodup ∧
      (∀ f ∈ found.1, isSql f = true ∧ ∃ root ∈ roots, f ∈ metBelow files root) ∧
      (∀ root ∈ roots, ∀ f ∈ metBelow files root, isSql f = true →
        ∃ g ∈ found.1, g.components = f.components) ∧
      ((∀ root ∈ roots, ∀ other ∈ roots, ∀ f ∈ metBelow files root, ∀ g ∈ metBelow files other,
        f.components = g.components → f = g) → found.1 = found'.1) ∧
      ∀ t : FileTree, t.WellFormed → ∀ root f, f ∈ metBelow t root ↔ IsFileBelow t root f := by
  intro found found'
  have hfound : found = (inOrder ((roots.flatMap (metBelow files)).filter isSql), files) :=
    run_sqlFiles_of_look hlook roots files
  have hfound' : found' = (inOrder ((roots'.flatMap (metBelow files')).filter isSql), files') :=
    run_sqlFiles_of_look hlook roots' files'
  rw [hfound, hfound']
  have hmem := mem_found_iff hroots hmet
  have hbelow : ∀ f ∈ inOrder ((roots.flatMap (metBelow files)).filter isSql),
      isSql f = true ∧ ∃ root ∈ roots, f ∈ metBelow files root := by
    intro f hf
    obtain ⟨hfound, hsql⟩ := List.mem_filter.1 (mem_of_mem_inOrder hf)
    exact ⟨hsql, List.mem_flatMap.1 hfound⟩
  have hcomponents : (inOrder ((roots.flatMap (metBelow files)).filter isSql)).map components =
      (inOrder ((roots'.flatMap (metBelow files')).filter isSql)).map components :=
    components_inOrder fun c => by simp only [List.mem_map, hmem]
  refine ⟨rfl, hcomponents, pairwise_inOrder _, nodup_components_inOrder _, hbelow, ?_, ?_,
    fun t ht root f => mem_metBelow_iff ht⟩
  · intro root hroot f hf hsql
    exact exists_mem_inOrder (List.mem_filter.2 ⟨List.mem_flatMap.2 ⟨root, hroot, hf⟩, hsql⟩)
  · intro hspelled
    refine eq_of_components hcomponents fun p hp q hq heq => ?_
    obtain ⟨-, root, hroot, hp⟩ := hbelow p hp
    have hq := (List.mem_filter.1 ((hmem q).2 (mem_of_mem_inOrder hq))).1
    obtain ⟨other, hother, hq⟩ := List.mem_flatMap.1 hq
    exact hspelled root hroot other hother p hp q hq heq

/-- Two SQL files in two directories, with another file beside one of them. -/
def scatteredFiles : FileTree :=
  ((FileTree.empty.putWithDirectories ["p", "b.sql"] (.file "select 1")).putWithDirectories
    ["p", "a", "one.sql"] (.file "select 2")).putWithDirectories ["p", "a", "notes.md"] (.file "")

/-- Roots that lie inside one another give the same files in another order and with one of them
repeated, also when the files are met the other way round. -/
theorem sqlFiles_of_roots_inside :
    let t := scatteredFiles
    let t' : FileTree := { scatteredFiles with nodes := scatteredFiles.nodes.reverse }
    let roots : List Path := [⟨"/p"⟩, ⟨"/p/a"⟩, ⟨"/p/b.sql"⟩]
    let roots' : List Path := [⟨"/p/b.sql"⟩, ⟨"/p/a"⟩, ⟨"/p"⟩, ⟨"/p/a"⟩]
    (∀ root, root ∈ roots ↔ root ∈ roots') ∧
      (∀ root ∈ roots, ∀ f, f ∈ metBelow t root ↔ f ∈ metBelow t' root) ∧
      metBelow t ⟨"/p"⟩ ≠ metBelow t' ⟨"/p"⟩ ∧
      (StateT.run (sqlFiles roots : StateM FileTree _) t).1 =
        (StateT.run (sqlFiles roots' : StateM FileTree _) t').1 ∧
      (∃ g ∈ (StateT.run (sqlFiles roots : StateM FileTree _) t).1,
        g.components = [.root, .name "p", .name "a", .name "one.sql"]) := by
  intro t t' roots roots'
  have hroots : ∀ root, root ∈ roots ↔ root ∈ roots' := by
    intro root
    simp only [roots, roots', List.mem_cons, List.not_mem_nil, or_false]
    tauto
  have hperm : ∀ root ∈ roots, (metBelow t root).Perm (metBelow t' root) := by decide +kernel
  have hmet : ∀ root ∈ roots, ∀ f, f ∈ metBelow t root ↔ f ∈ metBelow t' root :=
    fun root hroot f => (hperm root hroot).mem_iff
  have hspelled : ∀ root ∈ roots, ∀ other ∈ roots, ∀ f ∈ metBelow t root,
      ∀ g ∈ metBelow t other, f.components = g.components → f = g := by decide +kernel
  obtain ⟨-, -, -, -, -, hall, hsame, -⟩ := sqlFiles_of_roots (fun _ _ => rfl) hroots hmet
  refine ⟨hroots, hmet, by decide +kernel, hsame hspelled, ?_⟩
  have hone : (⟨"/p/a/one.sql"⟩ : Path) ∈ metBelow t ⟨"/p"⟩ := by decide +kernel
  obtain ⟨g, hg, hcomponents⟩ := hall ⟨"/p"⟩ List.mem_cons_self _ hone (by decide +kernel)
  exact ⟨g, hg, hcomponents.trans (by decide +kernel)⟩

end

end TypedSql.Discovery
