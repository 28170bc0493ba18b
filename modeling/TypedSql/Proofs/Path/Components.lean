import Mathlib.Data.List.Basic
import TypedSql.Path

namespace TypedSql.Path

/-! # Paths as they are written and the steps that they take

A path is cut at its separators, and what stands before the last of them takes its steps whatever
comes after. So joining paths joins their steps, and a text at the end of a path changes the last
step only.
-/

/-! ## Segments -/

/-- Cutting a text is splitting it at its slashes. -/
theorem cut_eq_splitOn (s : List Char) : cut s = s.splitOn '/' := by
  induction s with
  | nil => rfl
  | cons c rest ih =>
      rw [List.splitOn_cons_eq_if_modifyHead, ← ih, cut]
      have hne : cut rest ≠ [] := by
        rw [ih]
        exact List.splitOn_ne_nil '/' rest
      cases hcut : cut rest with
      | nil => exact absurd hcut hne
      | cons first others => by_cases hc : c = '/' <;> simp [hc]

/-- A slash cuts a text in two that are cut on their own. -/
theorem cut_append_cons (s t : List Char) : cut (s ++ '/' :: t) = cut s ++ cut t := by
  simp only [cut_eq_splitOn, List.splitOn_append_cons_self]

/-- A text without a slash is one segment. -/
theorem cut_of_not_mem {s : List Char} (h : '/' ∉ s) : cut s = [s] := by
  rw [cut_eq_splitOn, List.splitOn_eq_singleton h]

/-- Segments without slashes are found again in the text that they make. -/
theorem cut_intercalate {segments : List (List Char)} (h : ∀ s ∈ segments, '/' ∉ s)
    (hne : segments ≠ []) : cut (['/'].intercalate segments) = segments := by
  rw [cut_eq_splitOn, List.splitOn_intercalate '/' h hne]

/-- No segment holds a slash. -/
theorem not_mem_of_mem_cut {s segment : List Char} (h : segment ∈ cut s) : '/' ∉ segment := by
  induction s generalizing segment with
  | nil =>
      rw [List.mem_singleton.1 h]
      exact List.not_mem_nil
  | cons c rest ih =>
      rw [cut] at h
      split at h
      · rw [List.mem_singleton.1 h]
        exact List.not_mem_nil
      · next first others hcut =>
          rw [hcut] at ih
          by_cases hc : c = '/'
          · rw [if_pos hc] at h
            rcases List.mem_cons.1 h with rfl | h
            · exact List.not_mem_nil
            · exact ih h
          · rw [if_neg hc] at h
            rcases List.mem_cons.1 h with rfl | h
            · simp only [List.mem_cons, not_or]
              exact ⟨Ne.symm hc, ih List.mem_cons_self⟩
            · exact ih (List.mem_cons_of_mem _ h)

/-- A text before its last separator, with that, and the segment after it. -/
theorem exists_last_segment (s : List Char) :
    ∃ before last, s = before ++ last ∧ '/' ∉ last ∧
      (before = [] ∨ ∃ t, before = t ++ ['/']) := by
  induction s with
  | nil => exact ⟨[], [], rfl, List.not_mem_nil, .inl rfl⟩
  | cons c rest ih =>
      obtain ⟨before, last, rfl, hlast, rfl | ⟨t, rfl⟩⟩ := ih
      · by_cases hc : c = '/'
        · exact ⟨[c], last, rfl, hlast, .inr ⟨[], by rw [hc]; rfl⟩⟩
        · refine ⟨[], c :: last, rfl, ?_, .inl rfl⟩
          simp only [List.mem_cons, not_or]
          exact ⟨Ne.symm hc, hlast⟩
      · exact ⟨c :: (t ++ ['/']), last, rfl, hlast, .inr ⟨c :: t, rfl⟩⟩

/-! ## Names -/

/-- A text that is a single step with a name. -/
structure IsName (text : String) : Prop where
  ne_empty : text ≠ ""
  ne_current : text ≠ "."
  ne_parent : text ≠ ".."
  slash_not_mem : '/' ∉ text.toList

/-- A name is not empty. -/
theorem IsName.toList_ne_nil {text : String} (h : IsName text) : text.toList ≠ [] :=
  fun e => h.ne_empty (String.ext e)

theorem IsName.toList_ne_current {text : String} (h : IsName text) : text.toList ≠ ['.'] :=
  fun e => h.ne_current (String.ext e)

theorem IsName.toList_ne_parent {text : String} (h : IsName text) : text.toList ≠ ['.', '.'] :=
  fun e => h.ne_parent (String.ext e)

/-- A segment that is a name is a step to it. -/
theorem IsName.step? {text : String} (h : IsName text) :
    step? text.toList = some (.name text) := by
  simp [Path.step?, h.toList_ne_nil, h.toList_ne_current, h.toList_ne_parent]

/-- A segment that is a step to a name is the name. -/
theorem isName_of_step? {segment : List Char} {text : String} (hslash : '/' ∉ segment)
    (h : step? segment = some (.name text)) : IsName text := by
  unfold Path.step? at h
  split at h
  · cases h
  · next hidle =>
      split at h
      · cases h
      · next hparent =>
          cases h
          simp only [Bool.or_eq_true, decide_eq_true_eq, not_or] at hidle
          refine ⟨?_, ?_, ?_, by rwa [String.toList_ofList]⟩
          · exact fun e => hidle.1 (by simpa using congrArg String.toList e)
          · exact fun e => hidle.2 (by simpa using congrArg String.toList e)
          · exact fun e => hparent (by simpa using congrArg String.toList e)

/-! ## The steps of a text -/

/-- The steps of segments. -/
abbrev steps (segments : List (List Char)) : List Component := segments.filterMap step?

/-- The steps of a text, with what its first segment says about where they start. -/
def stepsOf (s : List Char) : List Component := components ⟨String.ofList s⟩

/-- The components of a path are the steps of its text. -/
theorem components_eq (p : Path) : p.components = stepsOf p.text.toList := by
  rw [stepsOf, String.ofList_toList]

theorem stepsOf_nil : stepsOf [] = [] := rfl

/-- An absolute path steps to the root first. -/
theorem stepsOf_slash (rest : List Char) : stepsOf ('/' :: rest) = .root :: steps (cut rest) := by
  simp [stepsOf, components]

/-- The steps of the segments of a path that does not start at the root. -/
def relativeSteps : List (List Char) → List Component
  | ['.'] :: others => .current :: steps others
  | segments => steps segments

/-- Steps are taken from where one stands, unless the first segment is a dot. -/
theorem relativeSteps_of_head? {segments : List (List Char)} (h : segments.head? ≠ some ['.']) :
    relativeSteps segments = steps segments := by
  unfold relativeSteps
  split
  · exact absurd rfl h
  · rfl

/-- Later segments are plain steps. -/
theorem relativeSteps_append {segments : List (List Char)} (h : segments ≠ [])
    (more : List (List Char)) :
    relativeSteps (segments ++ more) = relativeSteps segments ++ steps more := by
  cases segments with
  | nil => exact absurd rfl h
  | cons first others =>
      by_cases hfirst : first = ['.']
      · rw [hfirst]
        simp [relativeSteps]
      · have hhead : ∀ rest, (first :: rest).head? ≠ some ['.'] := by simpa using hfirst
        rw [List.cons_append, relativeSteps_of_head? (hhead _), relativeSteps_of_head? (hhead _),
          ← List.cons_append, steps, List.filterMap_append]

/-- The steps of a relative path are those of its segments. -/
theorem stepsOf_relative {s : List Char} (h : s.head? ≠ some '/') :
    stepsOf s = relativeSteps (cut s) := by
  unfold stepsOf components
  simp only [String.toList_ofList]
  split
  · rfl
  · exact absurd rfl h
  · unfold relativeSteps
    split <;> simp_all

/-- What comes after a separator takes its own steps. -/
theorem stepsOf_append_cons {s : List Char} (h : s ≠ []) (t : List Char) :
    stepsOf (s ++ '/' :: t) = stepsOf s ++ steps (cut t) := by
  cases s with
  | nil => exact absurd rfl h
  | cons c s =>
      by_cases hc : c = '/'
      · subst hc
        rw [List.cons_append, stepsOf_slash, stepsOf_slash, cut_append_cons, steps,
          List.filterMap_append, List.cons_append]
      · have hcut : cut (c :: s) ≠ [] := by
          rw [cut_eq_splitOn]
          exact List.splitOn_ne_nil '/' _
        rw [stepsOf_relative (by simp [hc]), stepsOf_relative (by simp [hc]), cut_append_cons,
          relativeSteps_append hcut]

/-- A separator at the end takes no step, unless it is the root. -/
theorem stepsOf_append_slash {s : List Char} (h : s ≠ []) : stepsOf (s ++ ['/']) = stepsOf s := by
  have hnil : steps (cut []) = [] := rfl
  rw [stepsOf_append_cons h, hnil, List.append_nil]

/-- A text up to a separator takes its steps whatever comes after. -/
theorem stepsOf_separated (s t : List Char) :
    stepsOf (s ++ '/' :: t) = stepsOf (s ++ ['/']) ++ steps (cut t) := by
  cases s with
  | nil =>
      have hnil : steps (cut []) = [] := rfl
      rw [List.nil_append, List.nil_append, stepsOf_slash, stepsOf_slash, hnil, List.cons_append,
        List.nil_append]
  | cons c s =>
      have hne : c :: s ≠ [] := List.cons_ne_nil c s
      rw [stepsOf_append_cons hne, stepsOf_append_slash hne]

/-- A text with something before a separator takes a step. -/
theorem stepsOf_append_slash_ne_nil (s : List Char) : stepsOf (s ++ ['/']) ≠ [] := by
  cases s with
  | nil => simp [stepsOf_slash]
  | cons c s =>
      by_cases hc : c = '/'
      · subst hc
        simp [stepsOf_slash]
      · rw [stepsOf_append_slash (List.cons_ne_nil c s), stepsOf_relative (by simp [hc])]
        -- The first segment starts with a character, so it takes a step or stays in place.
        obtain ⟨first, others, hcut⟩ : ∃ first others, cut (c :: s) = (c :: first) :: others := by
          rw [cut]
          split
          · next h =>
              rw [cut_eq_splitOn] at h
              exact absurd h (List.splitOn_ne_nil '/' s)
          · next first others _ => exact ⟨first, others, if_neg hc⟩
        rw [hcut]
        by_cases hdot : c :: first = ['.']
        · rw [hdot]
          simp [relativeSteps]
        · have hstep : (step? (c :: first)).isSome := by
            unfold Path.step?
            split <;> simp_all
            split <;> simp_all
          obtain ⟨component, hcomponent⟩ := Option.isSome_iff_exists.1 hstep
          rw [relativeSteps_of_head? (by simpa using hdot), steps,
            List.filterMap_cons_some hcomponent]
          exact List.cons_ne_nil _ _

/-- A text without a slash is at most one step. -/
theorem stepsOf_of_not_mem {s : List Char} (h : '/' ∉ s) : stepsOf s = relativeSteps [s] := by
  rw [stepsOf_relative, cut_of_not_mem h]
  intro hhead
  exact h (List.mem_of_mem_head? hhead)

/-- Names are steps to themselves. -/
theorem steps_names {names : List String} (h : ∀ n ∈ names, IsName n) :
    steps (names.map String.toList) = names.map .name := by
  induction names with
  | nil => rfl
  | cons n names ih =>
      rw [List.map_cons, steps, List.filterMap_cons_some (h n List.mem_cons_self).step?,
        ← steps, ih fun m hm => h m (List.mem_cons_of_mem _ hm), List.map_cons]

/-- Names with slashes between them are cut into the names. -/
theorem cut_names {names : List String} (h : ∀ n ∈ names, IsName n) (hne : names ≠ []) :
    cut ("/".intercalate names).toList = names.map String.toList := by
  have hslash : ∀ s ∈ names.map String.toList, '/' ∉ s := by
    intro s hs
    obtain ⟨n, hn, rfl⟩ := List.mem_map.1 hs
    exact (h n hn).slash_not_mem
  have hseparator : "/".toList = ['/'] := rfl
  rw [String.toList_intercalate, hseparator, cut_intercalate hslash (by simpa using hne)]

/-- Names with slashes between them are the steps to them. -/
theorem steps_cut_names {names : List String} (h : ∀ n ∈ names, IsName n) :
    steps (cut ("/".intercalate names).toList) = names.map .name := by
  by_cases hne : names = []
  · rw [hne]
    rfl
  · rw [cut_names h hne, steps_names h]

/-- Names with separators between them take no step from the root. -/
theorem head?_names {names : List String} (h : ∀ n ∈ names, IsName n) :
    ("/".intercalate names).toList.head? ≠ some '/' := by
  cases names with
  | nil => simp [String.intercalate_nil]
  | cons n names =>
      have hn := h n List.mem_cons_self
      obtain ⟨c, cs, hcs⟩ : ∃ c cs, n.toList = c :: cs := by
        cases hlist : n.toList with
        | nil => exact absurd (String.ext hlist) hn.ne_empty
        | cons c cs => exact ⟨c, cs, rfl⟩
      have hc : c ≠ '/' := by
        rintro rfl
        exact hn.slash_not_mem (by simp [hcs])
      cases names <;> simp [String.toList_intercalate, hcs, hc]

/-- A path of names takes the steps to them. -/
theorem stepsOf_names {names : List String} (h : ∀ n ∈ names, IsName n) :
    stepsOf ("/".intercalate names).toList = names.map .name := by
  rw [stepsOf_relative (head?_names h)]
  cases names with
  | nil => rfl
  | cons n names =>
      have hdot : n.toList ≠ ['.'] := (h n List.mem_cons_self).toList_ne_current
      rw [cut_names h (List.cons_ne_nil n names), relativeSteps_of_head? (by simpa using hdot),
        steps_names h]

/-- The named steps of a path are names. -/
theorem isName_of_mem_components {p : Path} {text : String} (h : .name text ∈ p.components) :
    IsName text := by
  have hsteps : ∀ segments, (∀ s ∈ segments, '/' ∉ s) → .name text ∈ steps segments →
      IsName text := by
    intro segments hslash hmem
    obtain ⟨segment, hsegment, hstep⟩ := List.mem_filterMap.1 hmem
    exact isName_of_step? (hslash segment hsegment) hstep
  have hcut : ∀ s : List Char, ∀ segment ∈ cut s, '/' ∉ segment :=
    fun s segment hsegment => not_mem_of_mem_cut hsegment
  unfold components at h
  split at h
  · cases h
  · rcases List.mem_cons.1 h with h | h
    · cases h
    · exact hsteps _ (hcut _) h
  · split at h
    · next others hothers =>
        rcases List.mem_cons.1 h with h | h
        · cases h
        · refine hsteps _ (fun s hs => hcut p.text.toList s ?_) h
          rw [hothers]
          exact List.mem_cons_of_mem _ hs
    · exact hsteps _ (hcut _) h

/-! ## Texts at the end of a path -/

/-- A text without separators that is a name after any segment. -/
def IsEnding (tail : String) : Prop :=
  '/' ∉ tail.toList ∧ 2 < tail.toList.length

/-- An ending makes a name of any text without separators. -/
theorem IsEnding.isName {tail : String} (h : IsEnding tail) {text : String}
    (hslash : '/' ∉ text.toList) : IsName (text ++ tail) := by
  have hlength : 2 < (text ++ tail).toList.length := by
    have := h.2
    rw [String.toList_append, List.length_append]
    omega
  refine ⟨fun e => ?_, fun e => ?_, fun e => ?_, ?_⟩
  · simp [e] at hlength
  · simp [e] at hlength
  · simp [e] at hlength
  · simpa [List.mem_append] using ⟨hslash, h.1⟩

/-- A last segment that is a name is the last step. -/
theorem stepsOf_name {before last : List Char} (hlast : IsName (String.ofList last))
    (hbefore : before = [] ∨ ∃ t, before = t ++ ['/']) :
    stepsOf (before ++ last) = stepsOf before ++ [.name (String.ofList last)] := by
  have hslash : '/' ∉ last := by simpa using hlast.slash_not_mem
  have hidle : last ≠ ['.'] := by simpa using hlast.toList_ne_current
  have hstep : step? last = some (.name (String.ofList last)) := by simpa using hlast.step?
  rcases hbefore with rfl | ⟨t, rfl⟩
  · rw [List.nil_append, stepsOf_of_not_mem hslash, stepsOf_nil, List.nil_append,
      relativeSteps_of_head? (by simpa using hidle), steps, List.filterMap_cons_some hstep,
      List.filterMap_nil]
  · rw [List.append_assoc, List.singleton_append, stepsOf_separated, cut_of_not_mem hslash, steps,
      List.filterMap_cons_some hstep, List.filterMap_nil]

/-- A path with an ending keeps its steps up to the last segment, and its last step is the name that
the segment and the ending make. -/
theorem components_append {p : Path} {tail : String} (htail : IsEnding tail)
    {before last : List Char} (htext : p.text.toList = before ++ last) (hlast : '/' ∉ last)
    (hbefore : before = [] ∨ ∃ t, before = t ++ ['/']) :
    (p.append tail).components =
      stepsOf before ++ [.name (String.ofList last ++ tail)] := by
  have hname : String.ofList last ++ tail = String.ofList (last ++ tail.toList) :=
    String.ext (by simp)
  have hends : IsName (String.ofList (last ++ tail.toList)) := by
    rw [← hname]
    exact htail.isName (by simpa using hlast)
  rw [components_eq, append, String.toList_append, htext, List.append_assoc,
    stepsOf_name hends hbefore, hname]

/-- Paths that take the same steps with an ending take the same steps without it. -/
theorem components_eq_of_append {p q : Path} {tail : String} (htail : IsEnding tail)
    (h : (p.append tail).components = (q.append tail).components) :
    p.components = q.components := by
  obtain ⟨before, last, htext, hlast, hbefore⟩ := exists_last_segment p.text.toList
  obtain ⟨before', last', htext', hlast', hbefore'⟩ := exists_last_segment q.text.toList
  rw [components_append htail htext hlast hbefore,
    components_append htail htext' hlast' hbefore'] at h
  obtain ⟨hsteps, hname⟩ := List.append_inj' h rfl
  have hsegment : last = last' := by
    have htexts : String.ofList last ++ tail = String.ofList last' ++ tail := by simpa using hname
    have hchars := congrArg String.toList htexts
    simpa using hchars
  subst hsegment
  rw [components_eq, components_eq, htext, htext']
  rcases hbefore with rfl | ⟨t, rfl⟩ <;> rcases hbefore' with rfl | ⟨t', rfl⟩
  · rfl
  · exact absurd hsteps.symm (stepsOf_append_slash_ne_nil t')
  · exact absurd hsteps (stepsOf_append_slash_ne_nil t)
  · simp only [List.append_assoc, List.singleton_append]
    rw [stepsOf_separated, stepsOf_separated t', hsteps]

/-- A text without separators at the end of a path is in the last segment. -/
theorem suffix_last_segment {before last name : List Char} (hname : '/' ∉ name)
    (hbefore : before = [] ∨ ∃ t, before = t ++ ['/']) (h : name <:+ before ++ last) :
    name <:+ last := by
  rcases List.suffix_or_suffix_of_suffix h (List.suffix_append before last) with
    hshort | ⟨more, rfl⟩
  · exact hshort
  · -- What the name has in front of the segment is the end of `before`, so there is none.
    obtain ⟨start, hstart⟩ := h
    rw [← List.append_assoc, List.append_left_inj] at hstart
    have hmore : more = [] := by
      rcases hbefore with rfl | ⟨t, rfl⟩
      · exact (List.append_eq_nil_iff.1 hstart).2
      · rcases List.eq_nil_or_concat more with rfl | ⟨front, c, rfl⟩
        · rfl
        · rw [List.concat_eq_append, ← List.append_assoc] at hstart
          obtain rfl : c = '/' := by simpa using (List.append_inj' hstart rfl).2
          exact absurd (by simp) hname
    rw [hmore]
    exact List.suffix_rfl

/-- A text without separators that ends in a name is a name. -/
theorem IsName.of_suffix {name text : String} (hname : IsName name) (hslash : '/' ∉ text.toList)
    (h : name.toList <:+ text.toList) : IsName text := by
  refine ⟨?_, ?_, ?_, hslash⟩
  · rintro rfl
    exact hname.toList_ne_nil (List.suffix_nil.1 h)
  · rintro rfl
    simp [List.suffix_cons_iff, hname.toList_ne_nil, hname.toList_ne_current] at h
  · rintro rfl
    simp [List.suffix_cons_iff, hname.toList_ne_nil, hname.toList_ne_current,
      hname.toList_ne_parent] at h

/-- An ending goes to the last step exactly if the text of the path ends in the name of that
step. -/
theorem components_append_iff {p : Path} {tail : String} (htail : IsEnding tail)
    {front : List Component} {name : String} (h : p.components = front ++ [.name name]) :
    (p.append tail).components = front ++ [.name (name ++ tail)] ↔
      name.toList <:+ p.text.toList := by
  obtain ⟨before, last, htext, hlast, hbefore⟩ := exists_last_segment p.text.toList
  rw [components_append htail htext hlast hbefore]
  constructor
  · intro hsteps
    have hnames : String.ofList last ++ tail = name ++ tail := by
      simpa using (List.append_inj' hsteps rfl).2
    have hsegment : last = name.toList := by simpa using congrArg String.toList hnames
    rw [htext, hsegment]
    exact List.suffix_append _ _
  · intro hends
    have hname : IsName name := isName_of_mem_components (by rw [h]; simp)
    rw [htext] at hends
    have hsegment : IsName (String.ofList last) := by
      refine hname.of_suffix (by simpa using hlast) ?_
      rw [String.toList_ofList]
      exact suffix_last_segment hname.slash_not_mem hbefore hends
    rw [components_eq, htext, stepsOf_name hsegment hbefore] at h
    obtain ⟨hsteps, hnames⟩ := List.append_inj' h rfl
    have hlastName : String.ofList last = name := by simpa using hnames
    rw [hsteps, hlastName]

/-! ## Joined paths -/

/-- A relative text below a directory with an ending is the text with the ending below it. -/
theorem join_append (dir : Path) {text tail : String} (htext : text.toList.head? ≠ some '/')
    (htail : tail.toList.head? ≠ some '/') :
    dir.join ⟨text ++ tail⟩ = (dir.join ⟨text⟩).append tail := by
  have hboth : (text ++ tail).toList.head? ≠ some '/' := by
    rw [String.toList_append]
    cases hlist : text.toList with
    | nil => simpa using htail
    | cons c cs =>
        rw [hlist] at htext
        simpa using htext
  simp only [join, isAbsolute, htext, hboth, decide_false, Bool.false_eq_true, if_false, append]
  split <;> simp [String.append_assoc]

/-- Below a directory names take their steps after those of the directory. -/
theorem components_join_names (dir : Path) {names : List String} (h : ∀ n ∈ names, IsName n) :
    (dir.join ⟨"/".intercalate names⟩).components = dir.components ++ names.map .name := by
  have hrelative : (⟨"/".intercalate names⟩ : Path).isAbsolute = false := by
    simpa [isAbsolute] using head?_names h
  rw [join, hrelative, if_neg Bool.false_ne_true]
  by_cases hempty : dir.text = ""
  · rw [if_pos (by simp [hempty]), components_eq, components_eq, hempty, String.empty_append,
      stepsOf_names h]
    rfl
  · have hne : dir.text.toList ≠ [] := fun e => hempty (String.ext e)
    by_cases hslash : dir.text.toList.getLast? = some '/'
    · -- The directory ends in a separator.
      obtain ⟨t, ht⟩ := List.getLast?_eq_some_iff.1 hslash
      rw [if_pos (by simp [hslash]), components_eq, components_eq, String.toList_append, ht,
        List.append_assoc, List.singleton_append, stepsOf_separated, steps_cut_names h]
    · have hneither :
          ¬ (dir.text.isEmpty || decide (dir.text.toList.getLast? = some '/')) = true := by
        simp [hempty, hslash]
      have hseparator : "/".toList = ['/'] := rfl
      rw [if_neg hneither, components_eq, components_eq, String.toList_append,
        String.toList_append, hseparator, List.append_assoc, List.singleton_append,
        stepsOf_append_cons hne, steps_cut_names h]

/-! ## Steps below a root -/

/-- What follows a row of steps is found after it. -/
theorem afterPrefix?_append (lead rest : List Component) :
    afterPrefix? lead (lead ++ rest) = some rest := by
  induction lead with
  | nil => rfl
  | cons c lead ih => rw [List.cons_append, afterPrefix?, if_pos rfl, ih]

/-- What is found after a row of steps follows it. -/
theorem eq_append_of_afterPrefix? {lead steps rest : List Component}
    (h : afterPrefix? lead steps = some rest) : steps = lead ++ rest := by
  fun_induction afterPrefix? lead steps with
  | case1 steps => exact Option.some.inj h
  | case2 => cases h
  | case3 lead b steps ih => rw [ih h, List.cons_append]
  | case4 => cases h

/-- The steps of a file below a root are among its steps. -/
theorem mem_components_of_mem_componentsBelow {file root : Path} {c : Component}
    (h : c ∈ file.componentsBelow root) : c ∈ file.components := by
  unfold componentsBelow at h
  cases hbelow : afterPrefix? root.components file.components with
  | none => rwa [hbelow] at h
  | some rest =>
      rw [hbelow] at h
      rw [eq_append_of_afterPrefix? hbelow]
      exact List.mem_append_right _ h

end TypedSql.Path
