import TypedSql.Proofs.Files.Directories

namespace TypedSql

open TypedSql.Path FileTree

/-! # Files by their paths

A path whose last step has a name leads into the directory above it. Where that is there, the path
is located, and a file can be written to its place. The files that are found below a path are
located as well, since the names that lead to them lead through directories.
-/

/-! ## Paths of files in a tree -/

namespace Path.NamesFile

variable {p : Path} {front : List (List Char)} {last : List Char}

/-- The last step of the path of a file goes to its name. -/
theorem moved_eq (h : p.NamesFile front last) (here : List String) :
    moved here last = here ++ [String.ofList last] :=
  moved_of_name h.not_idle h.not_parent here

/-- The place of a file is in the directory above. -/
theorem place_eq (h : p.NamesFile front last) (t : FileTree) :
    t.place p = reached (t.origin p.isAbsolute) (p.above front) ++ [String.ofList last] := by
  obtain ⟨idle, -, hsegments, hidle⟩ := h.exists_idle
  rw [place, hsegments, reached_append, reached_append, reached_idle hidle]
  exact h.moved_eq _

/-- The directories above a file step up out of directories only, where the path does. -/
theorem leadsTo_above (h : p.NamesFile front last) {t : FileTree} (hleads : t.LeadsTo p) :
    t.UpFromDirectories (t.origin p.isAbsolute) (p.above front) := by
  obtain ⟨idle, -, hsegments, -⟩ := h.exists_idle
  have hup := hleads.up
  rw [hsegments, upFromDirectories_append] at hup
  exact hup.1

/-- The way to the directory of a file is part of the way to the file. -/
theorem mem_passed (h : p.NamesFile front last) (here : List String) :
    ∀ n ∈ passed here (p.above front), n ∈ passed here p.segments := by
  obtain ⟨idle, -, hsegments, -⟩ := h.exists_idle
  exact mem_passed_of_front here hsegments

/-- Below a directory that is there a file is located, unless its name cannot be one. -/
theorem locate_eq (h : p.NamesFile front last) {t made : FileTree}
    (hworking : made.workingDirectory = t.workingDirectory)
    (hfollow : made.follow (p.above front) (t.origin p.isAbsolute) =
      .ok (reached (t.origin p.isAbsolute) (p.above front)))
    (hdir : made.node? (reached (t.origin p.isAbsolute) (p.above front)) = some .directory) :
    made.locate p =
      if '\x00' ∈ p.text.toList then .error .nulInName
      else if isTooLong last then .error .nameTooLong else .ok (t.place p) := by
  have horigin : made.origin p.isAbsolute = t.origin p.isAbsolute := by
    unfold origin
    rw [hworking]
  obtain ⟨idle, -, hsegments, hidle⟩ := h.exists_idle
  obtain ⟨first, c, htext, -⟩ := h.exists_last_char
  split
  · next hnul => exact locate_of_nul hnul
  · next hnul =>
      rw [FileTree.locate_eq (ne_empty_of_last htext) hnul, horigin, hsegments,
        follow_last hfollow hdir hidle, h.moved_eq, h.place_eq]

end Path.NamesFile

namespace FileTree

/-! ## Writing a file -/

section

variable {p : Path} {front : List (List Char)} {last : List Char} {t made : FileTree}

/-- A file is written in the place that its path leads to, unless a directory is there. -/
theorem write_eq (hp : p.NamesFile front last) (t : FileTree) (text : String) :
    t.write p text = (t.locate p).bind fun n =>
      if t.node? n = some .directory then .error .isDirectory else .ok (t.put n (.file text)) := by
  obtain ⟨first, c, htext, hc⟩ := hp.exists_last_char
  unfold FileTree.write target
  rw [withoutSlashes_eq htext hc]
  simp only [if_true]
  cases hlocate : t.locate p with
  | error e => rfl
  | ok n =>
      by_cases hn : t.node? n = some .directory
      · simp only [bind, Except.bind, hn, if_true]
      · simp only [bind, Except.bind, hn, if_false]
        rfl

/-- Writing a file is one change of the tree. -/
theorem run_write (p : Path) (text : String) (t : FileTree) :
    run (FileAccess.write p text) t = match t.write p text with
      | .ok t' => (.ok (), t')
      | .error e => (.error e, t) :=
  run_attempt (fun t => t.write p text) t

/-- A path that a file can be written to is located, and leads to no directory. -/
theorem locate_of_target {n : List String} (h : t.target p = .ok n) :
    t.locate p = .ok n ∧ t.node? n ≠ some .directory := by
  unfold target at h
  dsimp only at h
  split at h
  · obtain ⟨m, hlocate, htarget⟩ := Outcome.bind_eq_ok.1 h
    split at htarget
    · cases htarget
    · next hfile =>
        obtain rfl : m = n := Except.ok.inj htarget
        exact ⟨hlocate, hfile⟩
  · -- A path with a separator at its end is refused.
    split at h
    · cases h
    · obtain ⟨_, -, hrefused⟩ := Outcome.bind_eq_ok.1 h
      cases hrefused

/-- A file is written to the place that its path leads to, where there is no directory. -/
theorem eq_put_of_write {t' : FileTree} {text : String} (h : t.write p text = .ok t') :
    t.locate p = .ok (t.place p) ∧ t.node? (t.place p) ≠ some .directory ∧
      t' = t.put (t.place p) (.file text) := by
  obtain ⟨n, htarget, hput⟩ := Outcome.bind_eq_ok.1 h
  obtain ⟨hlocate, hfile⟩ := locate_of_target htarget
  obtain rfl := eq_place_of_locate hlocate
  exact ⟨hlocate, hfile, (Except.ok.inj hput).symm⟩

/-- What was written to a file is read from it. -/
theorem read_of_write {t' : FileTree} {text : String} (h : t.write p text = .ok t') :
    t'.read p = .ok text := by
  obtain ⟨hlocate, hfile, rfl⟩ := eq_put_of_write h
  -- The file was put in no one's way, so the path still leads to its place.
  have hkeeps := Keeps.put_file hfile text
  have hlocate' : (t.put (t.place p) (.file text)).locate p = .ok (t.place p) := by
    rw [hkeeps.locate_eq (by rw [hlocate]; nofun), hlocate]
  unfold FileTree.read
  rw [hlocate']
  simp only [bind, Except.bind, node?_put (ne_nil_of_not_directory hfile), if_true]

/-- What writing a file into a directory that is there comes to. -/
theorem run_write_below (hp : p.NamesFile front last)
    (hworking : made.workingDirectory = t.workingDirectory)
    (hfollow : made.follow (p.above front) (t.origin p.isAbsolute) =
      .ok (reached (t.origin p.isAbsolute) (p.above front)))
    (hdir : made.node? (reached (t.origin p.isAbsolute) (p.above front)) = some .directory)
    (text : String) :
    run (FileAccess.write p text) made =
      if '\x00' ∈ p.text.toList then (.error .nulInName, made)
      else if isTooLong last then (.error .nameTooLong, made)
      else if made.node? (t.place p) = some .directory then (.error .isDirectory, made)
      else (.ok (), made.put (t.place p) (.file text)) := by
  rw [run_write, write_eq hp, hp.locate_eq hworking hfollow hdir]
  by_cases hnul : '\x00' ∈ p.text.toList
  · rw [if_pos hnul, if_pos hnul]
    rfl
  · rw [if_neg hnul, if_neg hnul]
    by_cases hlong : isTooLong last = true
    · rw [if_pos hlong, if_pos hlong]
      rfl
    · rw [if_neg hlong, if_neg hlong, Except.bind]
      by_cases hnode : made.node? (t.place p) = some .directory
      · rw [if_pos hnode, if_pos hnode]
      · rw [if_neg hnode, if_neg hnode]

end

/-! ## Files that are found -/

section

variable {t : FileTree} {p f : Path} {n : List String} {name : String}

/-- A name is a relative path. -/
theorem isAbsolute_name (hname : IsName name) : (⟨name⟩ : Path).isAbsolute = false := by
  have hhead : name.toList.head? ≠ some '/' := fun e =>
    hname.slash_not_mem (List.mem_of_mem_head? e)
  simpa [isAbsolute] using hhead

/-- A name is one segment. -/
theorem segments_name (hname : IsName name) : (⟨name⟩ : Path).segments = [name.toList] := by
  rw [segments_of_relative (isAbsolute_name hname), cut_of_not_mem hname.slash_not_mem]

theorem join_name_ne_empty (p : Path) (hname : IsName name) : (p.join ⟨name⟩).text ≠ "" := by
  intro hempty
  obtain ⟨-, htext⟩ | ⟨-, htext⟩ := toList_join p (isAbsolute_name hname)
  · rw [hempty] at htext
    exact hname.toList_ne_nil (List.append_eq_nil_iff.1 htext.symm).2
  · rw [hempty] at htext
    simp at htext

/-- A name in a directory leads to its place there. -/
theorem follow_name (hdir : t.node? n = some .directory) (hname : IsName name)
    (hshort : isTooLong name.toList = false) : t.follow [name.toList] n = .ok (n ++ [name]) := by
  have hidle : ¬ IsIdle name.toList := not_or.2 ⟨hname.toList_ne_nil, hname.toList_ne_current⟩
  rw [follow_cons_of_directory hdir, hshort, moved_of_name hidle hname.toList_ne_parent,
    String.ofList_toList]
  rfl

/-- A name below a directory that is there is located. -/
theorem locate_join (hlocate : t.locate p = .ok n) (hdir : t.node? n = some .directory)
    (hname : IsName name) (hnul : '\x00' ∉ name.toList)
    (hshort : isTooLong name.toList = false) : t.locate (p.join ⟨name⟩) = .ok (n ++ [name]) := by
  obtain ⟨hpne, hpnul, hfollow⟩ := follow_of_locate hlocate
  have hrelative := isAbsolute_name hname
  have hstep := follow_name hdir hname hshort
  have hjoinNul : '\x00' ∉ (p.join ⟨name⟩).text.toList := by
    rw [mem_toList_join (by decide) p hrelative]
    exact not_or.2 ⟨hpnul, hnul⟩
  obtain ⟨habsolute, hjoin | ⟨front, hfront, hjoin⟩⟩ := segments_join p hrelative
  · rw [locate_eq (join_name_ne_empty p hname) hjoinNul, habsolute, hjoin, segments_name hname]
    exact follow_append_eq_ok.2 ⟨n, hfollow, hstep⟩
  · -- The path of the directory ends in a separator.
    rw [hfront] at hfollow
    obtain ⟨m, hm, hstay⟩ := follow_append_eq_ok.1 hfollow
    obtain rfl : n = m := eq_reached_of_follow hstay
    rw [locate_eq (join_name_ne_empty p hname) hjoinNul, habsolute, hjoin, segments_name hname]
    exact follow_append_eq_ok.2 ⟨n, hm, hstep⟩

/-- Names that lead to a file from the place of a path are located below the path. -/
theorem WellFormed.locate_names (ht : t.WellFormed) (hlocate : t.locate p = .ok n)
    {more : List String} {node : FileNode} (h : t.node? (n ++ more) = some node) :
    t.locate (more.foldl (fun p name => p.join ⟨name⟩) p) = .ok (n ++ more) := by
  induction more generalizing p n with
  | nil => rwa [List.append_nil]
  | cons name more ih =>
      have hne : n ++ name :: more ≠ [] := by simp
      rw [node?_of_ne_nil hne] at h
      obtain ⟨hname, hnul, hshort⟩ :=
        (ht.named _ (mem_nodes_of_lookup h)).2 name (by simp)
      rw [← node?_of_ne_nil hne] at h
      have hdir := ht.node?_of_append h (List.cons_ne_nil name more)
      have hjoin := locate_join hlocate hdir hname hnul hshort
      have hassoc : n ++ name :: more = (n ++ [name]) ++ more := by simp
      rw [hassoc] at h ⊢
      exact ih hjoin h

/-- The files that are found below a path are those whose names continue the names that the path
leads to. -/
theorem mem_filesBelow_iff : f ∈ t.filesBelow p ↔ ∃ n more node, t.locate p = .ok n ∧
    (n ++ more, node) ∈ t.nodes ∧ node ≠ .directory ∧
      f = more.foldl (fun p name => p.join ⟨name⟩) p := by
  unfold filesBelow
  cases hlocate : t.locate p with
  | error e => simp
  | ok n =>
      constructor
      · intro h
        obtain ⟨more, hmore, rfl⟩ := List.mem_map.1 h
        obtain ⟨⟨place, node⟩, hentry, hbelow⟩ := List.mem_filterMap.1 hmore
        split at hbelow
        · next hfile =>
            cases hbelow
            obtain ⟨more, rfl⟩ := List.isPrefixOf_iff_prefix.1 hfile.2
            rw [List.drop_left]
            exact ⟨n, more, node, rfl, hentry, hfile.1, rfl⟩
        · cases hbelow
      · rintro ⟨n', more, node, hn, hentry, hnode, rfl⟩
        obtain rfl : n = n' := Except.ok.inj hn
        refine List.mem_map.2 ⟨more, List.mem_filterMap.2 ⟨_, hentry, ?_⟩, rfl⟩
        have hfront : n.isPrefixOf (n ++ more) = true :=
          List.isPrefixOf_iff_prefix.2 (List.prefix_append n more)
        rw [if_pos ⟨hnode, hfront⟩, List.drop_left]

/-- A file that is found below a path is there. -/
theorem WellFormed.at?_of_mem_filesBelow (ht : t.WellFormed) (h : f ∈ t.filesBelow p) :
    ∃ node, t.at? f = some node ∧ node ≠ .directory := by
  obtain ⟨n, more, node, hlocate, hentry, hnode, rfl⟩ := mem_filesBelow_iff.1 h
  have hthere := ht.node?_of_mem hentry
  exact ⟨node, (at?_of_locate (ht.locate_names hlocate hthere)).trans hthere, hnode⟩

/-- Below a file only the file itself is found. -/
theorem WellFormed.mem_filesBelow_file (ht : t.WellFormed) {node : FileNode}
    (hp : t.at? p = some node) (hnode : node ≠ .directory) : f ∈ t.filesBelow p ↔ f = p := by
  obtain ⟨hlocate, hthere⟩ := locate_of_at? hp
  rw [mem_filesBelow_iff]
  constructor
  · rintro ⟨n, more, node', hn, hentry, hnode', rfl⟩
    obtain rfl : t.place p = n := Except.ok.inj (hlocate.symm.trans hn)
    by_cases hmore : more = []
    · rw [hmore]
      rfl
    · have hdir := ht.node?_of_append (ht.node?_of_mem hentry) hmore
      exact absurd hdir (not_directory_of_some hthere hnode)
  · rintro rfl
    have hne : t.place f ≠ [] := ne_nil_of_not_directory (not_directory_of_some hthere hnode)
    rw [node?_of_ne_nil hne] at hthere
    refine ⟨t.place f, [], node, hlocate, ?_, hnode, rfl⟩
    rw [List.append_nil]
    exact mem_nodes_of_lookup hthere

/-- A path that leads somewhere steps up out of directories only. -/
theorem leadsTo_of_locate (h : t.locate f = .ok n) : t.LeadsTo f :=
  ⟨upFromDirectories_of_follow (follow_of_locate h).2.2⟩

/-- A path that leads to a file ends in the name of the file. -/
theorem WellFormed.exists_namesFile (ht : t.WellFormed) {node : FileNode}
    (h : t.at? f = some node) (hnode : node ≠ .directory) :
    ∃ front last, f.NamesFile front last := by
  obtain ⟨hlocate, hthere⟩ := locate_of_at? h
  have hfile := not_directory_of_some hthere hnode
  obtain ⟨-, -, hfollow⟩ := follow_of_locate hlocate
  have hsegments := List.dropLast_append_getLast (segments_ne_nil f)
  generalize f.segments.dropLast = front at hsegments
  generalize f.segments.getLast (segments_ne_nil f) = last at hsegments
  rw [← hsegments] at hfollow
  obtain ⟨m, -, hlast⟩ := follow_append_eq_ok.1 hfollow
  have hdir := directory_of_follow hlast
  have hplace : t.place f = moved m last := eq_reached_of_follow hlast
  rw [hplace] at hfile
  -- A last step that is no name leads to a directory.
  refine ⟨front, last, hsegments.symm, fun hidle => ?_, fun hparent => ?_⟩
  · exact hfile (by rw [moved_of_idle hidle, hdir])
  · have hup : moved m last = m.dropLast := by
      rw [hparent]
      rfl
    exact hfile (by rw [hup, ht.node?_dropLast hdir])

end

end FileTree

end TypedSql
