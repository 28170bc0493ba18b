import TypedSql.Proofs.Files.Places

namespace TypedSql.FileTree

open TypedSql.Path

/-! # Making directories

A directory is made with those above it that are missing. Whatever there is in the tree, directories
come only at places that the path passes and where there was nothing, and the steps of the path can
be followed where that succeeds. Whether it succeeds depends on the files in the way, so in a tree
that has grown without a file in the way it does as it did before.
-/

/-! ## Runs -/

section

variable {α β : Type}

/-- What steps on a tree give, with the tree after them. -/
def run (x : StateM FileTree α) (t : FileTree) : α × FileTree := StateT.run x t

/-- A value that is given without an action leaves the tree as it is. -/
theorem run_pure (a : α) (t : FileTree) : run (pure a) t = (a, t) := rfl

/-- Two actions are run one after the other. -/
theorem run_bind (x : StateM FileTree α) (f : α → StateM FileTree β) (t : FileTree) :
    run (x >>= f) t = run (f (run x t).1) (run x t).2 := rfl

theorem run_map (f : α → β) (x : StateM FileTree α) (t : FileTree) :
    run (f <$> x) t = (f (run x t).1, (run x t).2) := rfl

/-- The first of a list of actions is run before the others. -/
theorem run_mapM_cons (f : α → StateM FileTree β) (a : α) (as : List α) (t : FileTree) :
    run ((a :: as).mapM f) t =
      ((run (f a) t).1 :: (run (as.mapM f) (run (f a) t).2).1,
        (run (as.mapM f) (run (f a) t).2).2) := by
  rw [List.mapM_cons]
  rfl

/-- Lists of actions are run one list after the other. -/
theorem run_mapM_append (f : α → StateM FileTree β) (as bs : List α) (t : FileTree) :
    run ((as ++ bs).mapM f) t =
      ((run (as.mapM f) t).1 ++ (run (bs.mapM f) (run (as.mapM f) t).2).1,
        (run (bs.mapM f) (run (as.mapM f) t).2).2) := by
  rw [List.mapM_append]
  rfl

/-- A change that fails leaves the tree as it is. -/
theorem run_attempt (change : FileTree → Except FileError FileTree) (t : FileTree) :
    run (attempt change) t = match change t with
      | .ok t' => (.ok (), t')
      | .error e => (.error e, t) := by
  unfold attempt
  rw [run_bind]
  have hget : run (get : StateM FileTree FileTree) t = (t, t) := rfl
  rw [hget]
  dsimp only
  cases change t with
  | ok t' => rfl
  | error e => rfl

end

/-! ## Changes of a tree -/

section

variable {t : FileTree} {n names : List String} {node : FileNode}

/-- Putting a node in a place changes what is in that place only. -/
theorem node?_put (hnames : names ≠ []) :
    (t.put names node).node? n = if n = names then some node else t.node? n := by
  have hrest : ∀ nodes : List (List String × FileNode), n ≠ names →
      (nodes.filter fun entry => entry.1 != names).lookup n = nodes.lookup n := by
    intro nodes hn
    induction nodes with
    | nil => rfl
    | cons entry nodes ih =>
        by_cases hentry : entry.1 = names
        · have hskip : (n == entry.1) = false := by simpa [hentry] using hn
          rw [List.filter_cons_of_neg (by simpa using hentry), List.lookup_cons, hskip]
          exact ih
        · rw [List.filter_cons_of_pos (by simpa using hentry), List.lookup_cons, List.lookup_cons,
            ih]
  unfold node? put
  by_cases hn : n = names
  · rw [if_pos hn, if_neg (by rwa [hn]), hn, List.lookup_cons_self]
  · have hother : (n == names) = false := by simpa using hn
    rw [if_neg hn, List.lookup_cons, hother, hrest t.nodes hn]

/-- A place without a directory is not the top of the tree. -/
theorem ne_nil_of_not_directory (h : t.node? n ≠ some .directory) : n ≠ [] := by
  rintro rfl
  exact h node?_nil

/-- A file comes where there is no directory, and everything else stays. -/
theorem Keeps.put_file (h : t.node? n ≠ some .directory) (text : String) :
    Keeps t (t.put n (.file text)) := by
  have hn := ne_nil_of_not_directory h
  refine ⟨rfl, fun m hm => ?_, fun m node hm hnode => ?_⟩
  · rw [node?_put hn, if_neg fun e => h (by rw [← e, hm]), hm]
  · rw [node?_put hn]
    split
    · exact ⟨.file text, rfl, nofun⟩
    · exact ⟨node, hm, hnode⟩

/-- Steps that can be followed past a new file could be followed before. -/
theorem follow_of_put_file (h : t.node? n ≠ some .directory) {text : String}
    {steps : List (List Char)} {here m : List String}
    (hfollow : (t.put n (.file text)).follow steps here = .ok m) : t.follow steps here = .ok m := by
  induction steps generalizing here with
  | nil => exact hfollow
  | cons step steps ih =>
      have hdir := directory_of_follow hfollow
      have hbefore : t.node? here = some .directory := by
        rw [node?_put (ne_nil_of_not_directory h)] at hdir
        split at hdir
        · cases hdir
        · exact hdir
      rw [follow_cons_of_directory hdir] at hfollow
      rw [follow_cons_of_directory hbefore]
      split at hfollow
      · cases hfollow
      · next hshort =>
          rw [if_neg hshort]
          exact ih hfollow

/-- A new file makes no difference to what there is at paths with other places. -/
theorem at?_put_file (h : t.node? n ≠ some .directory) (text : String) {q : Path}
    (hq : t.place q ≠ n) : (t.put n (.file text)).at? q = t.at? q := by
  have hkeeps := Keeps.put_file h text
  cases hlocate : (t.put n (.file text)).locate q with
  | ok m =>
      obtain ⟨hne, hnul, hfollow⟩ := follow_of_locate hlocate
      have hbefore : t.locate q = .ok m := by
        rw [locate_eq hne hnul, ← hkeeps.origin_eq]
        exact follow_of_put_file h hfollow
      have hm : m ≠ n := by
        rwa [eq_place_of_locate hbefore]
      rw [at?_of_locate hlocate, at?_of_locate hbefore, node?_put (ne_nil_of_not_directory h),
        if_neg hm]
  | error e =>
      rw [at?_of_not_located hlocate]
      cases hbefore : t.locate q with
      | error e' => exact (at?_of_not_located hbefore).symm
      | ok m =>
          -- What leads somewhere goes on leading there.
          have hfound : t.locate q ≠ .error .notFound := by
            rw [hbefore]
            exact nofun
          rw [hkeeps.locate_eq hfound, hbefore] at hlocate
          cases hlocate

/-- A tree that has grown by a path may have a file put there. -/
theorem Grown.put_file {p : Path} {t' : FileTree} (h : Grown [p] t t')
    (hnode : t'.node? (t.place p) ≠ some .directory) (text : String) :
    Grown [p] t (t'.put (t.place p) (.file text)) := by
  refine ⟨h.working, fun m => ?_⟩
  rw [node?_put (ne_nil_of_not_directory hnode)]
  split
  · next hm =>
      rw [hm]
      have hbefore : t.node? (t.place p) ≠ some .directory :=
        fun e => hnode (h.keeps.directory _ e)
      exact .inr (.inr ⟨hbefore, ⟨text, rfl⟩, p, List.mem_singleton_self p, rfl⟩)
  · exact h.node m

/-- A path that does not end in a separator is taken as it is. -/
theorem withoutSlashes_eq {p : Path} {front : List Char} {c : Char}
    (h : p.text.toList = front ++ [c]) (hc : c ≠ '/') : withoutSlashes p = p := by
  have htext : (p.text.toList.reverse.dropWhile (· == '/')).reverse = p.text.toList := by
    rw [h, List.reverse_concat, List.dropWhile_cons_of_neg (by simpa using hc), List.reverse_cons,
      List.reverse_reverse]
  unfold withoutSlashes
  rw [htext, String.ofList_toList]

/-- A path with a last character is not empty. -/
theorem ne_empty_of_last {p : Path} {front : List Char} {c : Char}
    (h : p.text.toList = front ++ [c]) : p.text ≠ "" := by
  intro hempty
  rw [hempty] at h
  simp at h

theorem isEmpty_of_last {p : Path} {front : List Char} {c : Char}
    (h : p.text.toList = front ++ [c]) : p.text.isEmpty = false := by
  simpa using ne_empty_of_last h

end

/-- A tree that came from another by making directories at some places, where there was nothing. -/
structure OnlyMade (places : List (List String)) (t t' : FileTree) : Prop where
  working : t'.workingDirectory = t.workingDirectory
  node : ∀ n, t'.node? n = t.node? n ∨
    (t.node? n = none ∧ t'.node? n = some .directory ∧ n ∈ places)

namespace OnlyMade

variable {places more : List (List String)} {t t' t'' : FileTree} {n : List String}

/-- Nothing is made where nothing is done. -/
theorem refl (places : List (List String)) (t : FileTree) : OnlyMade places t t :=
  ⟨rfl, fun _ => .inl rfl⟩

/-- A directory may be made in a place where nothing is. -/
theorem put (hn : t.node? n = none) (hmem : n ∈ places) :
    OnlyMade places t (t.put n .directory) := by
  have hne : n ≠ [] := ne_nil_of_not_directory (not_directory_of_none hn)
  refine ⟨rfl, fun m => ?_⟩
  rw [node?_put hne]
  split
  · next hm =>
      rw [hm]
      exact .inr ⟨hn, rfl, hmem⟩
  · exact .inl rfl

/-- What is made in some places is made in more places. -/
theorem mono (h : OnlyMade places t t') (hsub : ∀ n ∈ places, n ∈ more) : OnlyMade more t t' :=
  ⟨h.working, fun n => (h.node n).imp_right fun ⟨hnone, hdir, hn⟩ => ⟨hnone, hdir, hsub n hn⟩⟩

/-- What is made one after the other is made in the places of both. -/
theorem trans (h : OnlyMade places t t') (h' : OnlyMade places t' t'') :
    OnlyMade places t t'' := by
  refine ⟨h'.working.trans h.working, fun n => ?_⟩
  rcases h.node n with hsame | ⟨hnone, hdir, hn⟩
  · rw [← hsame]
    exact h'.node n
  · rcases h'.node n with hsame' | ⟨hnone', -, -⟩
    · exact .inr ⟨hnone, hsame'.trans hdir, hn⟩
    · rw [hdir] at hnone'
      cases hnone'

/-- Making directories keeps those that there are. -/
theorem keeps (h : OnlyMade places t t') : Keeps t t' := by
  refine ⟨h.working, fun n hn => ?_, fun n node hn hnode => ⟨node, ?_, hnode⟩⟩
  · rcases h.node n with hsame | ⟨-, hdir, -⟩
    · exact hsame.trans hn
    · exact hdir
  · rcases h.node n with hsame | ⟨hnone, -⟩
    · exact hsame.trans hn
    · rw [hn] at hnone
      cases hnone

/-- No file comes. -/
theorem free (h : OnlyMade places t t') (hn : t.node? n = none ∨ t.node? n = some .directory) :
    t'.node? n = none ∨ t'.node? n = some .directory := by
  rcases h.node n with hsame | ⟨-, hdir, -⟩
  · rwa [hsame]
  · exact .inr hdir

end OnlyMade

/-! ## Steps that can be followed -/

section

variable {t : FileTree} {here n : List String} {steps : List (List Char)}

/-- A way that can be followed has no step that is too long. -/
theorem not_tooLong_of_follow (h : t.follow steps here = .ok n) : steps.any isTooLong = false := by
  induction steps generalizing here with
  | nil => rfl
  | cons step steps ih =>
      rw [follow_cons_of_directory (directory_of_follow h)] at h
      split at h
      · cases h
      · next hshort => simpa [List.any_cons, hshort] using ih h

/-- Without a file in the way only a name that is too long stops the steps, or what is missing. -/
theorem error_of_follow (hhere : t.node? here = some .directory)
    (hfree : ∀ n ∈ passed here steps, t.node? n = none ∨ t.node? n = some .directory)
    {e : FileError} (h : t.follow steps here = .error e) :
    e = .notFound ∨ (e = .nameTooLong ∧ steps.any isTooLong = true) := by
  induction steps generalizing here with
  | nil => cases h
  | cons step steps ih =>
      rw [follow_cons_of_directory hhere] at h
      split at h
      · next hlong =>
          cases h
          exact .inr ⟨rfl, by rw [List.any_cons, hlong]; rfl⟩
      · rcases hfree (moved here step) List.mem_cons_self with hnone | hdir
        · cases steps with
          | nil => cases h
          | cons step' steps =>
              rw [follow_cons_of_none hnone] at h
              cases h
              exact .inl rfl
        · refine (ih hdir (fun n hn => hfree n (List.mem_cons_of_mem _ hn)) h).imp_right ?_
          rintro ⟨he, hlong⟩
          exact ⟨he, by rw [List.any_cons, hlong, Bool.or_true]⟩

/-- Segments that stay in place lead nowhere else. -/
theorem reached_idle (h : ∀ s ∈ steps, IsIdle s) : reached here steps = here := by
  induction steps with
  | nil => rfl
  | cons step steps ih =>
      rw [reached, List.foldl_cons, moved_of_idle (h step List.mem_cons_self)]
      exact ih fun s hs => h s (List.mem_cons_of_mem _ hs)

/-- Idle steps from a directory end in it. -/
theorem follow_idle (hhere : t.node? here = some .directory) (h : ∀ s ∈ steps, IsIdle s) :
    t.follow steps here = .ok here := by
  induction steps with
  | nil => rfl
  | cons step steps ih =>
      have hshort : isTooLong step = false := by
        rcases h step List.mem_cons_self with rfl | rfl
        · decide
        · decide
      rw [follow_cons_of_directory hhere, hshort, moved_of_idle (h step List.mem_cons_self),
        if_neg Bool.false_ne_true]
      exact ih fun s hs => h s (List.mem_cons_of_mem _ hs)

end

/-! ## One directory -/

/-- What making a directory comes to where its steps lead, one that is there being as good as a new
one. -/
def settled (t : FileTree) (steps : List (List Char)) (here : List String) :
    Except FileError Unit × FileTree :=
  match t.follow steps here with
  | .error e => (.error e, t)
  | .ok n =>
      match t.node? n with
      | none => (.ok (), t.put n .directory)
      | some .directory => (.ok (), t)
      | some _ => (.error .alreadyExists, t)

section

variable {t : FileTree} {steps : List (List Char)} {here n : List String}

/-- Where a way cannot be followed nothing is made. -/
theorem settled_of_error {e : FileError} (h : t.follow steps here = .error e) :
    t.settled steps here = (.error e, t) := by
  unfold settled
  rw [h]

/-- Where nothing is a directory is made. -/
theorem settled_of_none (h : t.follow steps here = .ok n) (hn : t.node? n = none) :
    t.settled steps here = (.ok (), t.put n .directory) := by
  unfold settled
  rw [h]
  simp only [hn]

/-- Where a directory is already nothing has to be made. -/
theorem settled_of_directory (h : t.follow steps here = .ok n) (hn : t.node? n = some .directory) :
    t.settled steps here = (.ok (), t) := by
  unfold settled
  rw [h]
  simp only [hn]

/-- Where a file is no directory can be made. -/
theorem settled_of_file (h : t.follow steps here = .ok n) {node : FileNode}
    (hn : t.node? n = some node) (hnode : node ≠ .directory) :
    t.settled steps here = (.error .alreadyExists, t) := by
  unfold settled
  rw [h]
  cases node with
  | directory => exact absurd rfl hnode
  | file text => simp only [hn]
  | noText => simp only [hn]

end

section

variable {t : FileTree} {absolute : Bool} {steps : List (List Char)} {p : Path}

/-- A text without a character has no segment with it. -/
theorem not_mem_segments {c : Char} (hc : c ≠ '/')
    (h : c ∉ (ofSegments absolute steps).text.toList) : ∀ s ∈ steps, c ∉ s :=
  fun s hs hmem => h ((mem_toList_ofSegments hc).2 ⟨s, hs, hmem⟩)

/-- A path that is put together from steps is followed by these steps. -/
theorem locate_ofSegments (h : IsTidy absolute steps) (hne : steps ≠ [])
    (hnul : ∀ s ∈ steps, '\x00' ∉ s) :
    t.locate (ofSegments absolute steps) = t.follow steps (t.origin absolute) := by
  obtain ⟨front, c, htext, -⟩ := h.exists_last_char hne
  have hnul' : '\x00' ∉ (ofSegments absolute steps).text.toList := by
    rw [mem_toList_ofSegments (by decide)]
    rintro ⟨s, hs, hmem⟩
    exact hnul s hs hmem
  rw [locate_eq (ne_empty_of_last htext) hnul', h.isAbsolute, h.segments_eq hne]

/-- Making a directory fails where the path leads nowhere or where something is already. -/
theorem makeDirectory_eq {front : List Char} {c : Char} (htext : p.text.toList = front ++ [c])
    (hc : c ≠ '/') (t : FileTree) :
    t.makeDirectory p = (t.locate p).bind fun n =>
      if (t.node? n).isSome then .error .alreadyExists else .ok (t.put n .directory) := by
  have hbare := withoutSlashes_eq htext hc
  unfold makeDirectory
  rw [hbare]
  simp only [isEmpty_of_last htext]
  rfl

/-- Making a directory is one change of the tree. -/
theorem run_makeDirectory (p : Path) (t : FileTree) :
    run (FileAccess.makeDirectory p) t = match t.makeDirectory p with
      | .ok t' => (.ok (), t')
      | .error e => (.error e, t) :=
  run_attempt (fun t => t.makeDirectory p) t

/-- A failure to make a directory is none where the directory is there. -/
theorem run_settle_error (p : Path) (e : FileError) (t : FileTree) :
    run (FileAccess.makeDirectoriesWithin.settle p (.error e)) t =
      (if t.at? p = some .directory then .ok () else .error e, t) := by
  have hlook : run (FileAccess.isDirectory p) t = (t.at? p == some .directory, t) := rfl
  rw [FileAccess.makeDirectoriesWithin.settle, run_bind, hlook]
  by_cases hdir : t.at? p = some .directory
  · rw [if_pos hdir, if_pos (beq_iff_eq.2 hdir), run_pure]
  · rw [if_neg hdir, if_neg (fun h => hdir (beq_iff_eq.1 h)), run_pure]

/-- Making a directory, one that is there being as good as a new one. -/
theorem run_makeDirectory_settle {front : List Char} {c : Char}
    (htext : p.text.toList = front ++ [c]) (hc : c ≠ '/')
    (hlocate : t.locate p = t.follow steps (t.origin absolute)) :
    run (FileAccess.makeDirectory p >>= FileAccess.makeDirectoriesWithin.settle p) t =
      t.settled steps (t.origin absolute) := by
  rw [run_bind, run_makeDirectory, makeDirectory_eq htext hc, hlocate]
  cases hfollow : t.follow steps (t.origin absolute) with
  | error e =>
      have hat := at?_of_not_located (hlocate.trans hfollow)
      rw [settled_of_error hfollow]
      dsimp only [Except.bind]
      rw [run_settle_error, hat, if_neg nofun]
  | ok n =>
      have hat := at?_of_locate (hlocate.trans hfollow)
      rcases t.node?_cases n with hnode | hnode | ⟨node, hnode, hother⟩
      · rw [settled_of_none hfollow hnode]
        simp only [Except.bind, hnode]
        rfl
      · rw [settled_of_directory hfollow hnode]
        simp only [Except.bind, hnode, Option.isSome_some, if_true]
        rw [run_settle_error, hat, hnode, if_pos rfl]
      · rw [settled_of_file hfollow hnode hother]
        simp only [Except.bind, hnode, Option.isSome_some, if_true]
        rw [run_settle_error, hat, hnode, if_neg fun h => hother (Option.some.inj h)]

end

/-! ## A directory and those above it -/

/-- How a tree is after making a directory and those above it, and what came of it. -/
structure Made (here : List String) (steps : List (List Char)) (t : FileTree)
    (result : Except FileError Unit) (t' : FileTree) : Prop where
  onlyMade : OnlyMade (passed here steps) t t'
  done : result = .ok () → t'.follow steps here = .ok (reached here steps) ∧
    t'.node? (reached here steps) = some .directory
  free : (∀ n ∈ passed here steps, t.node? n = none ∨ t.node? n = some .directory) →
    result = if steps.any isTooLong then .error .nameTooLong else .ok ()

/-- Making one directory makes it or finds why not. -/
theorem Made.of_settled {t : FileTree} {here : List String} {steps : List (List Char)}
    (hne : steps ≠ []) (hhere : t.node? here = some .directory)
    (hfound : t.follow steps here ≠ .error .notFound) :
    Made here steps t (t.settled steps here).1 (t.settled steps here).2 := by
  -- What is at the end of the steps decides: nothing, a directory, or a file.
  cases hfollow : t.follow steps here with
  | error e =>
      rw [settled_of_error hfollow]
      refine ⟨.refl _ t, nofun, fun hfree => ?_⟩
      rcases error_of_follow hhere hfree hfollow with rfl | ⟨rfl, hlong⟩
      · exact absurd hfollow hfound
      · rw [if_pos hlong]
  | ok n =>
      have hshort := not_tooLong_of_follow hfollow
      obtain rfl : n = reached here steps := eq_reached_of_follow hfollow
      have hmem : reached here steps ∈ passed here steps := reached_mem_passed hne
      rcases t.node?_cases (reached here steps) with hnode | hnode | ⟨node, hnode, hother⟩
      · rw [settled_of_none hfollow hnode]
        have hmade := OnlyMade.put hnode hmem
        have hplace : reached here steps ≠ [] :=
          ne_nil_of_not_directory (not_directory_of_none hnode)
        refine ⟨hmade, fun _ => ⟨?_, ?_⟩, fun _ => by rw [hshort]; rfl⟩
        · rw [hmade.keeps.follow_eq hfound]
          exact hfollow
        · rw [node?_put hplace, if_pos rfl]
      · rw [settled_of_directory hfollow hnode]
        exact ⟨.refl _ t, fun _ => ⟨hfollow, hnode⟩, fun _ => by rw [hshort]; rfl⟩
      · rw [settled_of_file hfollow hnode hother]
        refine ⟨.refl _ t, nofun, fun hfree => ?_⟩
        rcases hfree _ hmem with h | h
        · rw [hnode] at h
          cases h
        · exact absurd h (not_directory_of_some hnode hother)

section

variable {t : FileTree} {absolute : Bool} {steps : List (List Char)} {fuel : Nat}

/-- There is nothing to make for a path without steps. -/
theorem run_directories_nil (fuel : Nat) (t : FileTree) :
    run (FileAccess.makeDirectoriesWithin (fuel + 1) (ofSegments absolute [])) t = (.ok (), t) := by
  cases absolute with
  | false => rfl
  | true => rfl

/-- Unless something is missing, those above a directory are left alone. -/
theorem run_directories_found (h : IsTidy absolute steps) (hne : steps ≠ [])
    (hnul : ∀ s ∈ steps, '\x00' ∉ s)
    (hfound : t.follow steps (t.origin absolute) ≠ .error .notFound) :
    run (FileAccess.makeDirectoriesWithin (fuel + 1) (ofSegments absolute steps)) t =
      t.settled steps (t.origin absolute) := by
  obtain ⟨front, c, htext, hc⟩ := h.exists_last_char hne
  have hlocate := locate_ofSegments (t := t) h hne hnul
  have hresult : t.makeDirectory (ofSegments absolute steps) ≠ .error .notFound := by
    rw [makeDirectory_eq htext hc, hlocate]
    cases hfollow : t.follow steps (t.origin absolute) with
    | error e =>
        intro he
        have herror : e = .notFound := Except.error.inj he
        exact hfound (by rw [hfollow, herror])
    | ok n => cases hnode : t.node? n <;> simp [Except.bind, hnode]
  rw [← run_makeDirectory_settle htext hc hlocate]
  unfold FileAccess.makeDirectoriesWithin
  rw [isEmpty_of_last htext, if_neg Bool.false_ne_true, run_bind, run_bind, run_makeDirectory]
  cases hmake : t.makeDirectory (ofSegments absolute steps) with
  | ok _ => rfl
  | error e =>
      cases e with
      | notFound => exact absurd hmake hresult
      | _ => rfl

/-- Where something is missing, those above a directory are made first. -/
theorem run_directories_missing (h : IsTidy absolute steps) (hne : steps ≠ [])
    (hnul : ∀ s ∈ steps, '\x00' ∉ s)
    (hmissing : t.follow steps (t.origin absolute) = .error .notFound) :
    run (FileAccess.makeDirectoriesWithin (fuel + 1) (ofSegments absolute steps)) t =
      run (FileAccess.makeDirectoriesWithin fuel
          (ofSegments absolute (dropIdle (!absolute) steps.dropLast)) >>= fun result =>
        match result with
        | .error e => return .error e
        | .ok () => FileAccess.makeDirectory (ofSegments absolute steps) >>=
            FileAccess.makeDirectoriesWithin.settle (ofSegments absolute steps)) t := by
  obtain ⟨front, c, htext, hc⟩ := h.exists_last_char hne
  have hresult : t.makeDirectory (ofSegments absolute steps) = .error .notFound := by
    rw [makeDirectory_eq htext hc, locate_ofSegments h hne hnul, hmissing]
    rfl
  rw [FileAccess.makeDirectoriesWithin, isEmpty_of_last htext, if_neg Bool.false_ne_true, run_bind,
    run_makeDirectory, hresult]
  dsimp only
  split
  · next hnone =>
      rw [h.parent_eq hne] at hnone
      cases hnone
  · next parent hparent =>
      rw [h.parent_eq hne] at hparent
      cases hparent
      rfl

/-- A way passes every place that its front passes. -/
theorem mem_passed_of_front (here : List String) {steps front more : List (List Char)}
    (h : steps = front ++ more) : ∀ n ∈ passed here front, n ∈ passed here steps := by
  intro n hn
  rw [h, passed_append]
  exact List.mem_append_left _ hn

/-- What comes of making a directory when those above it have been made. -/
theorem Made.trans {t' : FileTree} {here : List String} {steps front more : List (List Char)}
    {result : Except FileError Unit} {r : Except FileError Unit × FileTree}
    (h : Made here front t result t') (hsteps : steps = front ++ more)
    (h' : Made here steps t' r.1 r.2) : Made here steps t r.1 r.2 := by
  have hpassed := mem_passed_of_front here hsteps
  refine ⟨(h.onlyMade.mono hpassed).trans h'.onlyMade, h'.done,
    fun hfree => h'.free fun n hn => ?_⟩
  exact h.onlyMade.free (hfree n hn)

/-- Where the directories above are there, the last step decides. -/
theorem follow_last {here : List String} {front idle : List (List Char)}
    (hfront : t.follow front here = .ok (reached here front))
    (hdir : t.node? (reached here front) = some .directory) (hidle : ∀ s ∈ idle, IsIdle s)
    (last : List Char) : t.follow (front ++ (idle ++ [last])) here =
      if isTooLong last then .error .nameTooLong else .ok (moved (reached here front) last) := by
  rw [follow_append, hfront, Except.bind, follow_append, follow_idle hdir hidle, Except.bind,
    follow_cons_of_directory hdir]
  rfl

/-- A path is the one above it, segments that stay in place, and its last segment. -/
theorem exists_above (absolute : Bool) (hne : steps ≠ []) :
    ∃ idle, (∀ s ∈ idle, IsIdle s) ∧
      steps = dropIdle (!absolute) steps.dropLast ++ (idle ++ [steps.getLast hne]) := by
  obtain ⟨idle, hfront, hidle⟩ := exists_idle (!absolute) steps.dropLast
  refine ⟨idle, hidle, ?_⟩
  rw [← List.append_assoc, ← hfront, List.dropLast_append_getLast]

/-- A directory that those above it cannot be made for fails as they do. -/
theorem Made.of_above_error {t' : FileTree} {here : List String} {front more : List (List Char)}
    {e : FileError} (h : Made here front t (.error e) t') (hsteps : steps = front ++ more) :
    Made here steps t (.error e) t' := by
  have hpassed := mem_passed_of_front here hsteps
  refine ⟨h.onlyMade.mono hpassed, nofun, fun hfree => ?_⟩
  have hresult := h.free fun n hn => hfree n (hpassed n hn)
  split at hresult
  · next hlong =>
      have hsome : steps.any isTooLong = true := by
        rw [hsteps, List.any_append, hlong, Bool.true_or]
      rw [hresult, hsome]
      rfl
  · cases hresult

/-- When those above a directory have been made, nothing is missing in front of its last step. -/
theorem Made.of_above_ok {t' : FileTree} {front idle : List (List Char)} {last : List Char}
    (habove : Made (t.origin absolute) front t (.ok ()) t')
    (hsteps : steps = front ++ (idle ++ [last])) (hidle : ∀ s ∈ idle, IsIdle s)
    (ht : t.node? (t.origin absolute) = some .directory) (h : IsTidy absolute steps)
    (hnul : ∀ s ∈ steps, '\x00' ∉ s) :
    Made (t.origin absolute) steps t
      (run (FileAccess.makeDirectory (ofSegments absolute steps) >>=
        FileAccess.makeDirectoriesWithin.settle (ofSegments absolute steps)) t').1
      (run (FileAccess.makeDirectory (ofSegments absolute steps) >>=
        FileAccess.makeDirectoriesWithin.settle (ofSegments absolute steps)) t').2 := by
  have hne : steps ≠ [] := by simp [hsteps]
  obtain ⟨hfollow, hdir⟩ := habove.done rfl
  have horigin := habove.onlyMade.keeps.origin_eq absolute
  obtain ⟨begin, c, htext, hc⟩ := h.exists_last_char hne
  have hfound : t'.follow steps (t.origin absolute) ≠ .error .notFound := by
    rw [hsteps, follow_last hfollow hdir hidle]
    split
    · exact nofun
    · exact nofun
  refine habove.trans hsteps ?_
  rw [run_makeDirectory_settle htext hc (locate_ofSegments h hne hnul), horigin]
  exact .of_settled hne (habove.onlyMade.keeps.directory _ ht) hfound

/-- Making a directory and those above it changes nothing but what is missing on the way. -/
theorem made_directories (ht : t.node? (t.origin absolute) = some .directory)
    (h : IsTidy absolute steps) (hnul : ∀ s ∈ steps, '\x00' ∉ s) (hfuel : steps.length < fuel) :
    Made (t.origin absolute) steps t
      (run (FileAccess.makeDirectoriesWithin fuel (ofSegments absolute steps)) t).1
      (run (FileAccess.makeDirectoriesWithin fuel (ofSegments absolute steps)) t).2 := by
  induction fuel generalizing steps with
  | zero => exact absurd hfuel (Nat.not_lt_zero _)
  | succ fuel ih =>
      by_cases hne : steps = []
      · rw [hne, run_directories_nil]
        exact ⟨.refl _ t, fun _ => ⟨rfl, ht⟩, fun _ => rfl⟩
      by_cases hmissing : t.follow steps (t.origin absolute) = .error .notFound
      · -- The directories above are made first, and those have a shorter path.
        obtain ⟨idle, hidle, hsteps⟩ := exists_above absolute hne
        have hsub : ∀ s ∈ dropIdle (!absolute) steps.dropLast, s ∈ steps := by
          intro s hs
          rw [hsteps]
          exact List.mem_append_left _ hs
        have hlength : (dropIdle (!absolute) steps.dropLast).length < fuel := by
          have hcount := congrArg List.length hsteps
          simp only [List.length_append, List.length_singleton] at hcount
          omega
        have habove := ih h.dropLast (fun s hs => hnul s (hsub s hs)) hlength
        rw [run_directories_missing h hne hnul hmissing, run_bind]
        generalize hrun : run (FileAccess.makeDirectoriesWithin fuel
          (ofSegments absolute (dropIdle (!absolute) steps.dropLast))) t = above at habove ⊢
        obtain ⟨result, t'⟩ := above
        cases result with
        | error e => exact habove.of_above_error hsteps
        | ok _ => exact habove.of_above_ok hsteps hidle ht h hnul
      · rw [run_directories_found h hne hnul hmissing]
        exact .of_settled hne ht hmissing

/-- No directory is made for a path with a NUL in it. -/
theorem run_directories_nul (h : IsTidy absolute steps)
    (hnul : '\x00' ∈ (ofSegments absolute steps).text.toList) :
    run (FileAccess.makeDirectoriesWithin (fuel + 1) (ofSegments absolute steps)) t =
      (.error .nulInName, t) := by
  have hne : steps ≠ [] := by
    rintro rfl
    rw [mem_toList_ofSegments (by decide)] at hnul
    simp at hnul
  obtain ⟨front, c, htext, hc⟩ := h.exists_last_char hne
  have hresult : t.makeDirectory (ofSegments absolute steps) = .error .nulInName := by
    rw [makeDirectory_eq htext hc, locate_of_nul hnul]
    rfl
  rw [FileAccess.makeDirectoriesWithin, isEmpty_of_last htext, if_neg Bool.false_ne_true, run_bind,
    run_makeDirectory, hresult]
  dsimp only
  rw [run_settle_error, at?_of_not_located (locate_of_nul hnul), if_neg nofun]

/-- Whatever comes of it, directories come only on the way, and where all of them are there in the
end the steps can be followed. -/
theorem directories_onlyMade (ht : t.node? (t.origin absolute) = some .directory)
    (h : IsTidy absolute steps) :
    OnlyMade (passed (t.origin absolute) steps) t
        (run (FileAccess.makeDirectories (ofSegments absolute steps)) t).2 ∧
      ((run (FileAccess.makeDirectories (ofSegments absolute steps)) t).1 = .ok () →
        (run (FileAccess.makeDirectories (ofSegments absolute steps)) t).2.follow steps
            (t.origin absolute) = .ok (reached (t.origin absolute) steps) ∧
          (run (FileAccess.makeDirectories (ofSegments absolute steps)) t).2.node?
            (reached (t.origin absolute) steps) = some .directory) := by
  unfold FileAccess.makeDirectories
  by_cases htext : '\x00' ∈ (ofSegments absolute steps).text.toList
  · rw [run_directories_nul h htext]
    exact ⟨.refl _ t, nofun⟩
  · have hnul : ∀ s ∈ steps, '\x00' ∉ s := not_mem_segments (by decide) htext
    have hmade := made_directories ht h hnul h.length_lt
    exact ⟨hmade.onlyMade, hmade.done⟩

/-- The last step comes to the same in a tree that has grown, with nothing of it in the way. -/
theorem settled_alike {ps : List Path} {t' : FileTree} {here : List String}
    (hgrown : Grown ps t t') (hne : steps ≠ []) (hfound : t.follow steps here ≠ .error .notFound)
    (hplace : ∀ n ∈ passed here steps, t.node? n = none → ∀ q ∈ ps, n ≠ t.place q) :
    (t'.settled steps here).1 = (t.settled steps here).1 := by
  have hfollow := hgrown.keeps.follow_eq hfound
  cases hn : t.follow steps here with
  | error e => rw [settled_of_error hn, settled_of_error (hfollow.trans hn)]
  | ok n =>
      have hmem : n ∈ passed here steps := by
        rw [eq_reached_of_follow hn]
        exact reached_mem_passed hne
      rcases t.node?_cases n with hnode | hnode | ⟨node, hnode, hother⟩
      · rw [settled_of_none hn hnode]
        rcases hgrown.free (.inl hnode) (hplace n hmem) with hnode' | hnode'
        · rw [settled_of_none (hfollow.trans hn) hnode']
        · rw [settled_of_directory (hfollow.trans hn) hnode']
      · rw [settled_of_directory hn hnode,
          settled_of_directory (hfollow.trans hn) (hgrown.keeps.directory n hnode)]
      · obtain ⟨node', hnode', hother'⟩ := hgrown.keeps.not_directory n node hnode hother
        rw [settled_of_file hn hnode hother, settled_of_file (hfollow.trans hn) hnode' hother']

/-- In a tree that has grown, with nothing of it in the way, making directories comes to the same
as before. -/
theorem directories_alike {ps : List Path} {t' : FileTree} (ht : t.WellFormed)
    (hgrown : Grown ps t t') (h : IsTidy absolute steps)
    (hup : t.UpFromDirectories (t.origin absolute) steps)
    (hplace : ∀ n ∈ passed (t.origin absolute) steps, t.node? n = none →
      ∀ q ∈ ps, n ≠ t.place q) :
    (run (FileAccess.makeDirectories (ofSegments absolute steps)) t').1 =
      (run (FileAccess.makeDirectories (ofSegments absolute steps)) t).1 := by
  unfold FileAccess.makeDirectories
  have horigin := hgrown.keeps.origin_eq absolute
  have hdir := ht.node?_origin absolute
  have hdir' := hgrown.keeps.node?_origin ht absolute
  by_cases htext : '\x00' ∈ (ofSegments absolute steps).text.toList
  · rw [run_directories_nul h htext, run_directories_nul h htext]
  have hnul : ∀ s ∈ steps, '\x00' ∉ s := not_mem_segments (by decide) htext
  by_cases hmissing : t.follow steps (t.origin absolute) = .error .notFound
  · -- No file is in the way, and none has come there.
    have hfree := (ht.free_of_notFound hup hdir hmissing).1
    have hfree' : ∀ n ∈ passed (t'.origin absolute) steps,
        t'.node? n = none ∨ t'.node? n = some .directory := by
      rw [horigin]
      exact fun n hn => hgrown.free (hfree n hn) (hplace n hn)
    rw [(made_directories hdir h hnul h.length_lt).free hfree,
      (made_directories hdir' h hnul h.length_lt).free hfree']
  -- Nothing is missing, so there is at most the last step to be made.
  by_cases hne : steps = []
  · rw [hne, run_directories_nil, run_directories_nil]
  · have hmissing' : t'.follow steps (t'.origin absolute) ≠ .error .notFound := by
      rwa [horigin, hgrown.keeps.follow_eq hmissing]
    rw [run_directories_found h hne hnul hmissing, run_directories_found h hne hnul hmissing',
      horigin]
    exact settled_alike hgrown hne hmissing hplace

end

end TypedSql.FileTree
