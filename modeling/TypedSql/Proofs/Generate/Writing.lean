import TypedSql.Generate
import TypedSql.Proofs.Files.Named

namespace TypedSql

open TypedSql.Path FileTree

/-! # Writing a declaration into a tree

A declaration is written after the directories above it have been made. In a tree that has grown
away from it, it is written or refused as before, and the tree grows by the declaration and the
directories above it only.
-/

namespace Generate

/-! ## Writing -/

section

variable {p : Path} {front : List (List Char)} {last : List Char} {t made : FileTree}

theorem run_writeDeclaration (hp : p.NamesFile front last) (text : String) (t : FileTree) :
    run (writeDeclaration p text) t =
      match run (FileAccess.makeDirectories (p.directory front)) t with
      | (.error e, t') => (.error ⟨.create, p.directory front, e⟩, t')
      | (.ok _, t') => ((run (FileAccess.write p text) t').1.mapError fun e => ⟨.write, p, e⟩,
          (run (FileAccess.write p text) t').2) := by
  unfold writeDeclaration
  rw [hp.parent_eq, run_bind]
  dsimp only
  rw [run_map]
  obtain ⟨result, t'⟩ := run (FileAccess.makeDirectories (p.directory front)) t
  cases result with
  | error e => rfl
  | ok _ => rfl

end

/-! ## Writing in a tree that has grown -/

section

variable {p : Path} {front : List (List Char)} {last : List Char} {t t' made : FileTree}
  {ps : List Path}

/-- The directories above a file are made where nothing is, not at the place of the file. -/
theorem node?_place (hp : p.NamesFile front last) (ht : t.WellFormed) (hgrown : Grown ps t t')
    (hleads : t.LeadsTo p) (hapart : ∀ q ∈ ps, t.Apart p q)
    (hmade : OnlyMade (passed (t.origin p.isAbsolute) (p.above front)) t' made) :
    made.node? (t.place p) = t.node? (t.place p) := by
  have hsame : t'.node? (t.place p) = t.node? (t.place p) :=
    hgrown.node?_eq fun q hq => (hapart q hq).1
  rcases hmade.node (t.place p) with hnode | ⟨hnone, -, hmem⟩
  · exact hnode.trans hsame
  · have hfree := not_directory_of_none (hgrown.eq_none hnone)
    -- The place of the file would be above its own directory.
    have habove := ht.prefix_of_mem_passed (hp.leadsTo_above hleads) hmem hfree
    have hlength := habove.length_le
    rw [hp.place_eq, List.length_append, List.length_singleton] at hlength
    omega

/-- The places of directories above a file are not those that a tree has grown at. -/
theorem ne_place_of_passed (hp : p.NamesFile front last) (ht : t.WellFormed) (hleads : t.LeadsTo p)
    (hapart : ∀ q ∈ ps, t.Apart p q) {n : List String}
    (hn : n ∈ passed (t.origin p.isAbsolute) (p.above front)) (hnone : t.node? n = none) :
    ∀ q ∈ ps, n ≠ t.place q := by
  rintro q hq rfl
  have hfree := not_directory_of_none hnone
  exact (hapart q hq).2 (ht.prefix_of_mem_passed hleads.up (hp.mem_passed _ _ hn) hfree)

/-- Below directories that are there, writing a file comes to what the node at its place tells. -/
theorem write_alike {made' : FileTree} (hp : p.NamesFile front last)
    (hworking : made.workingDirectory = t.workingDirectory)
    (hworking' : made'.workingDirectory = t.workingDirectory)
    (hthere : made.follow (p.above front) (t.origin p.isAbsolute) =
        .ok (reached (t.origin p.isAbsolute) (p.above front)) ∧
      made.node? (reached (t.origin p.isAbsolute) (p.above front)) = some .directory)
    (hthere' : made'.follow (p.above front) (t.origin p.isAbsolute) =
        .ok (reached (t.origin p.isAbsolute) (p.above front)) ∧
      made'.node? (reached (t.origin p.isAbsolute) (p.above front)) = some .directory)
    (hnode : made'.node? (t.place p) = made.node? (t.place p)) (text : String) :
    (run (FileAccess.write p text) made').1 = (run (FileAccess.write p text) made).1 := by
  rw [run_write_below hp hworking hthere.1 hthere.2,
    run_write_below hp hworking' hthere'.1 hthere'.2, hnode]
  split_ifs
  all_goals rfl

/-- In a tree that has grown away from a file, writing the file comes to the same as before. -/
theorem writeDeclaration_alike (hp : p.NamesFile front last) (ht : t.WellFormed)
    (hgrown : Grown ps t t') (hleads : t.LeadsTo p) (hapart : ∀ q ∈ ps, t.Apart p q)
    (text : String) :
    (run (writeDeclaration p text) t').1 = (run (writeDeclaration p text) t).1 := by
  have hdir := ht.node?_origin p.isAbsolute
  have horigin := hgrown.keeps.origin_eq p.isAbsolute
  have hdir' := hgrown.keeps.node?_origin ht p.isAbsolute
  have halike := directories_alike ht hgrown hp.isTidy_above (hp.leadsTo_above hleads)
    fun n hn hnone => ne_place_of_passed hp ht hleads hapart hn hnone
  obtain ⟨hmade, hdone⟩ := directories_onlyMade hdir hp.isTidy_above
  obtain ⟨hmade', hdone'⟩ := directories_onlyMade hdir' hp.isTidy_above
  rw [horigin] at hmade' hdone'
  rw [run_writeDeclaration hp, run_writeDeclaration hp]
  unfold Path.directory
  generalize run (FileAccess.makeDirectories (ofSegments p.isAbsolute (p.above front))) t = r at *
  generalize run (FileAccess.makeDirectories (ofSegments p.isAbsolute (p.above front))) t' = r' at *
  obtain ⟨result, made⟩ := r
  obtain ⟨result', made'⟩ := r'
  obtain rfl : result' = result := halike
  cases result' with
  | error e => rfl
  | ok _ =>
      -- The file is located alike, and what is at its place is as it was.
      have hnode := node?_place hp ht (.refl [] t) hleads nofun hmade
      have hnode' := node?_place hp ht hgrown hleads hapart hmade'
      have hworking' := hmade'.working.trans hgrown.working
      exact congrArg (Except.mapError _) (write_alike hp hmade.working hworking' (hdone rfl)
        (hdone' rfl) (hnode'.trans hnode.symm) text)

/-- The directories above a file are places below which the tree grows by the file. -/
theorem grown_of_onlyMade (hp : p.NamesFile front last) (ht : t.WellFormed)
    (hgrown : Grown ps t t') (hleads : t.LeadsTo p)
    (hmade : OnlyMade (passed (t'.origin p.isAbsolute) (p.above front)) t' made) :
    Grown [p] t' made := by
  refine ⟨hmade.working, fun n => ?_⟩
  rcases hmade.node n with hsame | ⟨hnone, hdir, hmem⟩
  · exact .inl hsame
  · refine .inr (.inl ⟨hnone, hdir, p, List.mem_singleton_self p, ?_⟩)
    have hfree := not_directory_of_none (hgrown.eq_none hnone)
    rw [hgrown.keeps.origin_eq] at hmem
    rw [hgrown.place_eq]
    exact ht.prefix_of_mem_passed hleads.up (hp.mem_passed _ _ hmem) hfree

/-- A file that is written below directories that are there is found afterwards. -/
theorem grown_write (hp : p.NamesFile front last) (hmade : Grown [p] t made)
    (hfollow : made.follow (p.above front) (t.origin p.isAbsolute) =
      .ok (reached (t.origin p.isAbsolute) (p.above front)))
    (hthere : made.node? (reached (t.origin p.isAbsolute) (p.above front)) = some .directory)
    (text : String) :
    Grown [p] t (run (FileAccess.write p text) made).2 ∧
      ((run (FileAccess.write p text) made).1 = .ok () →
        (run (FileAccess.write p text) made).2.at? p = some (.file text)) := by
  rw [run_write_below hp hmade.working hfollow hthere]
  split_ifs with hnul hlong hnode
  · exact ⟨hmade, nofun⟩
  · exact ⟨hmade, nofun⟩
  · exact ⟨hmade, nofun⟩
  · have hlocate := hp.locate_eq hmade.working hfollow hthere
    rw [if_neg hnul, if_neg hlong] at hlocate
    have hput := Keeps.put_file hnode text
    have hfile := hput.locate_eq (by rw [hlocate]; exact nofun)
    refine ⟨hmade.put_file hnode text, fun _ => ?_⟩
    rw [at?_of_locate (hfile.trans hlocate), node?_put (ne_nil_of_not_directory hnode),
      if_pos rfl]

/-- Writing a file makes the tree grow by the file, which is there if that succeeds. -/
theorem grown_writeDeclaration (hp : p.NamesFile front last) (ht : t.WellFormed)
    (hgrown : Grown ps t t') (hleads : t.LeadsTo p) (text : String) :
    Grown [p] t' (run (writeDeclaration p text) t').2 ∧
      ((run (writeDeclaration p text) t').1 = .ok () →
        (run (writeDeclaration p text) t').2.at? p = some (.file text)) := by
  have hdir' := hgrown.keeps.node?_origin ht p.isAbsolute
  obtain ⟨hmade, hdone⟩ := directories_onlyMade hdir' hp.isTidy_above
  rw [run_writeDeclaration hp]
  unfold Path.directory
  generalize run (FileAccess.makeDirectories (ofSegments p.isAbsolute (p.above front))) t' = r at *
  obtain ⟨result, made⟩ := r
  have hgrownMade := grown_of_onlyMade hp ht hgrown hleads hmade
  cases result with
  | error e => exact ⟨hgrownMade, nofun⟩
  | ok _ =>
      obtain ⟨hfollow, hthere⟩ := hdone rfl
      obtain ⟨hmore, hfile⟩ := grown_write hp hgrownMade hfollow hthere text
      exact ⟨hmore, fun hwritten => hfile (Outcome.mapError_eq_ok.1 hwritten)⟩

end

end Generate

end TypedSql
