import TypedSql.Proofs.Path.Components

namespace TypedSql.Path

/-! # The directory of a path

A path is its segments after the root or after where it starts. The directory that it is in has the
same segments without the last one, and without those at its end that take no step.
-/

/-! ## Segments that take no step -/

/-- A segment that stays in place. -/
def IsIdle (segment : List Char) : Prop := segment = [] ∨ segment = ['.']

/-- A segment before idle ones only is left out as well, if it is idle itself. -/
theorem dropIdle_cons_of_nil {anchored : Bool} {segment : List Char} {rest : List (List Char)}
    (h : dropIdle false rest = []) : dropIdle anchored (segment :: rest) =
      if segment = [] || (segment = ['.'] && !anchored) then [] else [segment] := by
  rw [dropIdle, h]

/-- A segment before others that are kept is kept. -/
theorem dropIdle_cons_of_ne_nil {anchored : Bool} {segment : List Char} {rest : List (List Char)}
    (h : dropIdle false rest ≠ []) :
    dropIdle anchored (segment :: rest) = segment :: dropIdle false rest := by
  rw [dropIdle]
  split
  · next hnil => exact absurd hnil h
  · rfl

/-- Idle segments are left out at once. -/
theorem dropIdle_idem (anchored : Bool) (segments : List (List Char)) :
    dropIdle anchored (dropIdle anchored segments) = dropIdle anchored segments := by
  induction segments generalizing anchored with
  | nil => rfl
  | cons segment rest ih =>
      by_cases hrest : dropIdle false rest = []
      · rw [dropIdle_cons_of_nil hrest]
        split
        · rfl
        · next hidle => rw [dropIdle_cons_of_nil rfl, if_neg hidle]
      · rw [dropIdle_cons_of_ne_nil hrest, dropIdle_cons_of_ne_nil (by rwa [ih]), ih]

/-- What is dropped at the end takes no step. -/
theorem exists_idle (anchored : Bool) (segments : List (List Char)) :
    ∃ idle, segments = dropIdle anchored segments ++ idle ∧ ∀ s ∈ idle, IsIdle s := by
  induction segments generalizing anchored with
  | nil => exact ⟨[], rfl, nofun⟩
  | cons segment rest ih =>
      obtain ⟨idle, hsegments, hidle⟩ := ih false
      by_cases hrest : dropIdle false rest = []
      · rw [hrest, List.nil_append] at hsegments
        rw [dropIdle_cons_of_nil hrest]
        split
        · next hsegment =>
            refine ⟨segment :: idle, by rw [← hsegments]; rfl, fun s hs => ?_⟩
            rcases List.mem_cons.1 hs with rfl | hs
            · simp only [Bool.or_eq_true, decide_eq_true_eq, Bool.and_eq_true] at hsegment
              exact hsegment.imp_right And.left
            · exact hidle s hs
        · exact ⟨idle, by rw [← hsegments]; rfl, hidle⟩
      · rw [dropIdle_cons_of_ne_nil hrest]
        exact ⟨idle, by rw [List.cons_append, ← hsegments], hidle⟩

/-- No empty segment is left at the end. -/
theorem getLast?_dropIdle (anchored : Bool) (segments : List (List Char)) :
    (dropIdle anchored segments).getLast? ≠ some [] := by
  induction segments generalizing anchored with
  | nil => exact nofun
  | cons segment rest ih =>
      by_cases hrest : dropIdle false rest = []
      · rw [dropIdle_cons_of_nil hrest]
        split
        · exact nofun
        · next hsegment =>
            intro hlast
            have hempty : segment = [] := Option.some.inj hlast
            exact hsegment (by simp [hempty])
      · rw [dropIdle_cons_of_ne_nil hrest]
        obtain ⟨first, others, hcons⟩ := List.exists_cons_of_ne_nil hrest
        have hlast := ih false
        rw [hcons] at hlast ⊢
        rwa [List.getLast?_cons_cons]

/-- Segments of which the last one takes a step are kept. -/
theorem dropIdle_concat (anchored : Bool) (segments : List (List Char)) {last : List Char}
    (h : ¬ IsIdle last) : dropIdle anchored (segments ++ [last]) = segments ++ [last] := by
  induction segments generalizing anchored with
  | nil =>
      have hlast : ¬ ((decide (last = []) || decide (last = ['.']) && !anchored) = true) := by
        simp only [Bool.or_eq_true, decide_eq_true_eq, Bool.and_eq_true, not_or, not_and]
        exact ⟨fun e => h (.inl e), fun e => absurd (.inr e) h⟩
      rw [List.nil_append, dropIdle_cons_of_nil rfl, if_neg hlast]
  | cons segment rest ih =>
      have hne : dropIdle false (rest ++ [last]) ≠ [] := by
        rw [ih]
        simp
      rw [List.cons_append, dropIdle_cons_of_ne_nil hne, ih]

/-! ## Cut texts -/

/-- Every text has a segment, if only an empty one. -/
theorem cut_ne_nil (s : List Char) : cut s ≠ [] := by
  rw [cut_eq_splitOn]
  exact List.splitOn_ne_nil '/' s

/-- Segments with slashes between them are the text that was cut. -/
theorem intercalate_cut (s : List Char) : ['/'].intercalate (cut s) = s := by
  rw [cut_eq_splitOn]
  exact List.intercalate_splitOn '/'

/-- A text has at most one segment more than it has characters. -/
theorem length_cut_le (s : List Char) : (cut s).length ≤ s.length + 1 := by
  induction s with
  | nil => exact Nat.le_refl 1
  | cons c rest ih =>
      obtain ⟨first, others, hcut⟩ := List.exists_cons_of_ne_nil (cut_ne_nil rest)
      rw [hcut, List.length_cons] at ih
      rw [cut, hcut]
      show (if c = '/' then [] :: first :: others else (c :: first) :: others).length ≤ _
      split
      · simp only [List.length_cons]
        omega
      · simp only [List.length_cons]
        omega

/-- A text without separators goes to the last segment. -/
theorem cut_append {tail : List Char} (h : '/' ∉ tail) (s : List Char) :
    ∃ front last, cut s = front ++ [last] ∧ cut (s ++ tail) = front ++ [last ++ tail] := by
  obtain ⟨before, last, rfl, hlast, rfl | ⟨t, rfl⟩⟩ := exists_last_segment s
  · have hboth : '/' ∉ last ++ tail := by simpa [List.mem_append] using ⟨hlast, h⟩
    exact ⟨[], last, cut_of_not_mem hlast, cut_of_not_mem hboth⟩
  · have hboth : '/' ∉ last ++ tail := by simpa [List.mem_append] using ⟨hlast, h⟩
    refine ⟨cut t, last, ?_, ?_⟩
    · rw [List.append_assoc, List.singleton_append, cut_append_cons, cut_of_not_mem hlast]
    · rw [List.append_assoc, List.append_assoc, List.singleton_append, cut_append_cons,
        cut_of_not_mem hboth]

/-- A text after a slash is cut on its own. -/
theorem cut_append_of_separated {s : List Char} (h : s = [] ∨ s.getLast? = some '/')
    (t : List Char) : ∃ front, cut s = front ++ [[]] ∧ cut (s ++ t) = front ++ cut t := by
  rcases h with rfl | h
  · exact ⟨[], rfl, rfl⟩
  · obtain ⟨before, rfl⟩ := List.getLast?_eq_some_iff.1 h
    refine ⟨cut before, cut_append_cons before [], ?_⟩
    rw [List.append_assoc, List.singleton_append, cut_append_cons]

/-- The last segment is what stands after the last slash. -/
theorem getLast?_cut_append {before last : List Char} (hlast : '/' ∉ last)
    (hbefore : before = [] ∨ ∃ t, before = t ++ ['/']) :
    (cut (before ++ last)).getLast? = some last := by
  rcases hbefore with rfl | ⟨t, rfl⟩
  · rw [List.nil_append, cut_of_not_mem hlast]
    rfl
  · rw [List.append_assoc, List.singleton_append, cut_append_cons, cut_of_not_mem hlast]
    exact List.getLast?_concat

/-- A text whose last segment is not empty does not end in a separator. -/
theorem exists_last_char {s : List Char} (h : (cut s).getLast? ≠ some []) :
    ∃ front c, s = front ++ [c] ∧ c ≠ '/' := by
  obtain ⟨before, last, rfl, hlast, hbefore⟩ := exists_last_segment s
  have hends := getLast?_cut_append hlast hbefore
  rw [hends] at h
  rcases List.eq_nil_or_concat last with rfl | ⟨front, c, rfl⟩
  · exact absurd rfl h
  · refine ⟨before ++ front, c, by simp, ?_⟩
    rintro rfl
    exact hlast (by simp)

/-- Names with separators between them do not end in one. -/
theorem getLast?_names {names : List String} (h : ∀ n ∈ names, IsName n) :
    ("/".intercalate names).toList.getLast? ≠ some '/' := by
  rcases List.eq_nil_or_concat names with rfl | ⟨front, last, rfl⟩
  · exact nofun
  · rw [List.concat_eq_append] at h ⊢
    have hlast : (cut ("/".intercalate (front ++ [last])).toList).getLast? ≠ some [] := by
      rw [cut_names h (by simp), List.map_append, List.map_singleton, List.getLast?_concat]
      exact fun e => (h last (by simp)).toList_ne_nil (Option.some.inj e)
    obtain ⟨start, c, htext, hc⟩ := exists_last_char hlast
    rw [htext, List.getLast?_concat]
    exact fun e => hc (Option.some.inj e)

/-- A character other than the slash stands in a text when it stands in one of the segments. -/
theorem mem_intercalate {c : Char} (hc : c ≠ '/') {segments : List (List Char)} :
    c ∈ ['/'].intercalate segments ↔ ∃ s ∈ segments, c ∈ s := by
  induction segments with
  | nil => simp
  | cons first others ih =>
      cases others with
      | nil => simp
      | cons second others =>
          rw [List.intercalate_cons_cons, List.mem_append, List.mem_append, ih]
          simp [hc]

/-! ## Paths by their segments -/

/-- The path with the given segments, from the root or from where paths start. -/
def ofSegments (absolute : Bool) (segments : List (List Char)) : Path :=
  ⟨(if absolute then "/" else "") ++ "/".intercalate (segments.map String.ofList)⟩

/-- Segments of a path as it is written, without any at the end that take no step. -/
structure IsTidy (absolute : Bool) (segments : List (List Char)) : Prop where
  slash_not_mem : ∀ s ∈ segments, '/' ∉ s
  dropIdle_eq : dropIdle (!absolute) segments = segments
  head?_ne : absolute = false → segments.head? ≠ some []

section

variable {absolute : Bool} {segments : List (List Char)}

/-- A path of segments is written with slashes between them, and with one in front when it is
absolute. -/
theorem toList_ofSegments (absolute : Bool) (segments : List (List Char)) :
    (ofSegments absolute segments).text.toList =
      (if absolute then ['/'] else []) ++ ['/'].intercalate segments := by
  have hseparator : "/".toList = ['/'] := rfl
  rw [ofSegments, String.toList_append, String.toList_intercalate, hseparator, List.map_map]
  have hchars : (String.toList ∘ String.ofList) = id := by
    funext s
    exact String.toList_ofList
  rw [hchars, List.map_id]
  cases absolute <;> rfl

/-- Segments that are tidy are found again in their text. -/
theorem IsTidy.cut_eq (h : IsTidy absolute segments) (hne : segments ≠ []) :
    cut (['/'].intercalate segments) = segments :=
  cut_intercalate h.slash_not_mem hne

/-- The text of segments that start a relative path does not start at the root. -/
theorem IsTidy.head?_intercalate (h : IsTidy false segments) :
    (['/'].intercalate segments).head? ≠ some '/' := by
  cases segments with
  | nil => exact nofun
  | cons first others =>
      have hfirst : first ≠ [] := fun e => h.head?_ne rfl (by rw [e]; rfl)
      have hslash := h.slash_not_mem first List.mem_cons_self
      obtain ⟨c, cs, rfl⟩ := List.exists_cons_of_ne_nil hfirst
      have hc : c ≠ '/' := fun e => hslash (by rw [e]; exact List.mem_cons_self)
      cases others with
      | nil => simpa using hc
      | cons second others => simpa [List.intercalate_cons_cons] using hc

/-- A path of tidy segments is absolute when it is said to be. -/
theorem IsTidy.isAbsolute (h : IsTidy absolute segments) :
    (ofSegments absolute segments).isAbsolute = absolute := by
  unfold Path.isAbsolute
  rw [toList_ofSegments]
  cases absolute with
  | true => rfl
  | false => simpa using h.head?_intercalate

/-- The directory of a path has its segments without the last. -/
theorem IsTidy.parent_eq (h : IsTidy absolute segments) (hne : segments ≠ []) :
    (ofSegments absolute segments).parent =
      some (ofSegments absolute (dropIdle (!absolute) segments.dropLast)) := by
  unfold parent
  rw [toList_ofSegments]
  cases absolute with
  | true =>
      have hdrop : dropIdle false segments = segments := h.dropIdle_eq
      have hanchor : (("/" : String).isEmpty) = false := rfl
      simp only [if_true, List.singleton_append, hanchor, h.cut_eq hne, hdrop]
      cases segments with
      | nil => exact absurd rfl hne
      | cons first others => rfl
  | false =>
      have hdrop : dropIdle true segments = segments := h.dropIdle_eq
      have hcut := h.cut_eq hne
      have hhead := h.head?_intercalate
      simp only [Bool.false_eq_true, if_false, List.nil_append]
      cases htext : ['/'].intercalate segments with
      | nil =>
          rw [htext] at hcut
          rw [← hcut] at hdrop
          cases hdrop
      | cons c cs =>
          -- The text does not start with a separator, so there is no root in front of it.
          rw [htext] at hcut hhead
          have hc : c ≠ '/' := by simpa using hhead
          obtain ⟨first, others, hsegments⟩ := List.exists_cons_of_ne_nil hne
          rw [hsegments] at hcut hdrop ⊢
          have hanchor : (("" : String).isEmpty) = true := rfl
          simp [hc, hanchor, hcut, hdrop, ofSegments]

/-- The segments of the directory are tidy as well. -/
theorem IsTidy.dropLast (h : IsTidy absolute segments) :
    IsTidy absolute (dropIdle (!absolute) segments.dropLast) := by
  obtain ⟨idle, hidle, -⟩ := exists_idle (!absolute) segments.dropLast
  have hmem : ∀ s ∈ dropIdle (!absolute) segments.dropLast, s ∈ segments := by
    intro s hs
    refine List.dropLast_subset _ ?_
    rw [hidle]
    exact List.mem_append_left _ hs
  refine ⟨fun s hs => h.slash_not_mem s (hmem s hs), dropIdle_idem _ _, fun habsolute hhead => ?_⟩
  obtain ⟨rest, hrest⟩ := List.head?_eq_some_iff.1 hhead
  rw [hrest] at hidle
  refine h.head?_ne habsolute ?_
  cases segments with
  | nil => cases hidle
  | cons first others =>
      cases others with
      | nil => cases hidle
      | cons second others =>
          rw [List.dropLast_cons_of_ne_nil (List.cons_ne_nil _ _)] at hidle
          rw [(List.cons.inj hidle).1]
          rfl

/-- A path of tidy segments does not end in a slash. -/
theorem IsTidy.getLast?_cut (h : IsTidy absolute segments) (hne : segments ≠ []) :
    (cut (['/'].intercalate segments)).getLast? ≠ some [] := by
  rw [h.cut_eq hne, ← h.dropIdle_eq]
  exact getLast?_dropIdle _ _

/-- The text of a path with segments does not end in a separator. -/
theorem IsTidy.exists_last_char (h : IsTidy absolute segments) (hne : segments ≠ []) :
    ∃ front c, (ofSegments absolute segments).text.toList = front ++ [c] ∧ c ≠ '/' := by
  obtain ⟨front, c, htext, hc⟩ := Path.exists_last_char (h.getLast?_cut hne)
  refine ⟨(if absolute then ['/'] else []) ++ front, c, ?_, hc⟩
  rw [toList_ofSegments, htext, List.append_assoc]

/-- A path of tidy segments has fewer segments than characters, or one. -/
theorem IsTidy.length_lt (h : IsTidy absolute segments) :
    segments.length < (ofSegments absolute segments).text.length + 1 := by
  by_cases hne : segments = []
  · rw [hne]
    exact Nat.succ_pos _
  · obtain ⟨front, c, htext, hc⟩ := Path.exists_last_char (h.getLast?_cut hne)
    -- The last character makes no segment of its own.
    have hslash : '/' ∉ [c] := by simpa using Ne.symm hc
    obtain ⟨cutFront, last, hcut, hcut'⟩ := cut_append hslash front
    have hcount := length_cut_le front
    have hlength : segments.length = (cut front).length := by
      rw [← h.cut_eq hne, htext, hcut, hcut', List.length_append, List.length_append]
      rfl
    have htotal : (ofSegments absolute segments).text.length =
        (if absolute then ['/'] else []).length + (front.length + 1) := by
      rw [← String.length_toList, toList_ofSegments, htext, List.length_append,
        List.length_append]
      rfl
    omega

/-- A character other than the slash stands in a path of segments when it stands in one of them. -/
theorem mem_toList_ofSegments {c : Char} (hc : c ≠ '/') :
    c ∈ (ofSegments absolute segments).text.toList ↔ ∃ s ∈ segments, c ∈ s := by
  rw [toList_ofSegments, List.mem_append, mem_intercalate hc]
  cases absolute <;> simp [hc]

end

/-! ## The segments of a path -/

/-- The segments of a path, those after the root if it starts there. -/
def segments (p : Path) : List (List Char) :=
  match p.text.toList with
  | '/' :: rest => cut rest
  | s => cut s

section

variable {p q : Path}

/-- The segments of an absolute path are those after its first slash. -/
theorem segments_of_slash {rest : List Char} (h : p.text.toList = '/' :: rest) :
    p.segments = cut rest := by
  unfold segments
  rw [h]
  rfl

/-- The segments of a relative path are those of its text. -/
theorem segments_of_relative (h : p.isAbsolute = false) : p.segments = cut p.text.toList := by
  unfold segments
  split
  · next rest htext => simp [isAbsolute, htext] at h
  · rfl

/-- A path is absolute with text after the root, or relative. -/
theorem absolute_or_relative (p : Path) :
    (∃ rest, p.text.toList = '/' :: rest ∧ p.isAbsolute = true) ∨ p.isAbsolute = false := by
  cases habsolute : p.isAbsolute with
  | true =>
      simp only [isAbsolute, decide_eq_true_eq] at habsolute
      obtain ⟨rest, hrest⟩ := List.head?_eq_some_iff.1 habsolute
      exact .inl ⟨rest, hrest, rfl⟩
  | false => exact .inr rfl

/-- A path that starts with a slash is absolute. -/
theorem isAbsolute_of_slash {rest : List Char} (h : p.text.toList = '/' :: rest) :
    p.isAbsolute = true := by
  rw [isAbsolute, h]
  rfl

/-- More text after a relative path or after none leaves it relative. -/
theorem isRelative_of_append {r : Path} {s t : List Char} (htext : r.text.toList = s ++ t)
    (hs : s.head? ≠ some '/') (ht : t.head? ≠ some '/' ∨ s ≠ []) : r.isAbsolute = false := by
  simp only [isAbsolute, decide_eq_false_iff_not, htext]
  cases s with
  | nil => simpa using ht
  | cons c s => simpa using hs

/-- Every path has a segment, if only an empty one. -/
theorem segments_ne_nil (p : Path) : p.segments ≠ [] := by
  unfold segments
  split
  · exact cut_ne_nil _
  · exact cut_ne_nil _

/-- A path is told by its segments. -/
theorem ofSegments_segments (p : Path) : ofSegments p.isAbsolute p.segments = p := by
  have htext : (ofSegments p.isAbsolute p.segments).text.toList = p.text.toList := by
    rw [toList_ofSegments]
    obtain ⟨rest, hrest, habsolute⟩ | hrelative := p.absolute_or_relative
    · rw [habsolute, segments_of_slash hrest, intercalate_cut, hrest]
      rfl
    · rw [hrelative, segments_of_relative hrelative, intercalate_cut]
      rfl
  have hstring := String.ext htext
  exact congrArg Path.mk hstring

/-- The segments of a path of tidy segments are these segments. -/
theorem IsTidy.segments_eq {absolute : Bool} {segments : List (List Char)}
    (h : IsTidy absolute segments) (hne : segments ≠ []) :
    (ofSegments absolute segments).segments = segments := by
  cases absolute with
  | true =>
      rw [segments_of_slash (toList_ofSegments true segments)]
      exact h.cut_eq hne
  | false =>
      rw [segments_of_relative h.isAbsolute, toList_ofSegments]
      exact h.cut_eq hne

/-- Segments of which the last one takes a step are tidy. -/
theorem isTidy_segments {front : List (List Char)} {last : List Char}
    (h : p.segments = front ++ [last]) (hlast : ¬ IsIdle last) :
    IsTidy p.isAbsolute p.segments := by
  refine ⟨fun s hs => ?_, ?_, fun hrelative hhead => ?_⟩
  · unfold segments at hs
    split at hs
    · exact not_mem_of_mem_cut hs
    · exact not_mem_of_mem_cut hs
  · rw [h]
    exact dropIdle_concat _ _ hlast
  · -- A relative path with nothing in front of its first separator has no separator and no text.
    rw [segments_of_relative hrelative] at hhead h
    cases htext : p.text.toList with
    | nil =>
        rw [htext] at h
        have hends : ([[]] : List (List Char)).getLast? = (front ++ [last]).getLast? :=
          congrArg List.getLast? h
        rw [List.getLast?_concat] at hends
        exact hlast (.inl (Option.some.inj hends).symm)
    | cons c cs =>
        have hc : c ≠ '/' := by
          rintro rfl
          simp [isAbsolute, htext] at hrelative
        rw [htext, cut] at hhead
        split at hhead
        · next hcut => exact cut_ne_nil _ hcut
        · rw [if_neg hc] at hhead
          cases hhead

/-- An ending without a slash is put to the last segment of a path. -/
theorem segments_append {tail : String} (h : '/' ∉ tail.toList) (p : Path) :
    (p.append tail).isAbsolute = p.isAbsolute ∧ ∃ front last,
      p.segments = front ++ [last] ∧ (p.append tail).segments = front ++ [last ++ tail.toList] := by
  have htext : (p.append tail).text.toList = p.text.toList ++ tail.toList := String.toList_append
  obtain ⟨rest, hrest, habsolute⟩ | hrelative := p.absolute_or_relative
  · have hslash : (p.append tail).text.toList = '/' :: (rest ++ tail.toList) := by
      rw [htext, hrest, List.cons_append]
    obtain ⟨front, last, hcut, happend⟩ := cut_append h rest
    refine ⟨?_, front, last, (segments_of_slash hrest).trans hcut,
      (segments_of_slash hslash).trans happend⟩
    rw [habsolute, isAbsolute, hslash]
    rfl
  · have hrelative' : (p.append tail).isAbsolute = false := by
      refine isRelative_of_append htext (by simpa [isAbsolute] using hrelative) (.inl ?_)
      exact fun hhead => h (List.mem_of_mem_head? hhead)
    obtain ⟨front, last, hcut, happend⟩ := cut_append h p.text.toList
    refine ⟨hrelative'.trans hrelative.symm, front, last,
      (segments_of_relative hrelative).trans hcut, ?_⟩
    rw [segments_of_relative hrelative', htext]
    exact happend

/-- A separator comes between a directory and a relative path below it, where it has none at its
end. -/
theorem toList_join (p : Path) (hq : q.isAbsolute = false) :
    ((p.text.toList = [] ∨ p.text.toList.getLast? = some '/') ∧
        (p.join q).text.toList = p.text.toList ++ q.text.toList) ∨
      (p.text.toList ≠ [] ∧ (p.join q).text.toList = p.text.toList ++ '/' :: q.text.toList) := by
  have hseparator : "/".toList = ['/'] := rfl
  have hempty : p.text.isEmpty = true ↔ p.text.toList = [] := by simp
  by_cases hopen : p.text.toList = [] ∨ p.text.toList.getLast? = some '/'
  · have hjoin : (p.text.isEmpty || decide (p.text.toList.getLast? = some '/')) = true := by
      simpa [hempty] using hopen
    refine .inl ⟨hopen, ?_⟩
    rw [join, hq, if_neg Bool.false_ne_true, if_pos hjoin, String.toList_append]
  · have hjoin : ¬ (p.text.isEmpty || decide (p.text.toList.getLast? = some '/')) = true := by
      simpa [hempty] using hopen
    refine .inr ⟨fun e => hopen (.inl e), ?_⟩
    rw [join, hq, if_neg Bool.false_ne_true, if_neg hjoin, String.toList_append,
      String.toList_append, hseparator, List.append_assoc, List.singleton_append]

/-- A character other than the slash stands in a joined path when it stands in one of its parts. -/
theorem mem_toList_join {c : Char} (hc : c ≠ '/') (p : Path) (hq : q.isAbsolute = false) :
    c ∈ (p.join q).text.toList ↔ c ∈ p.text.toList ∨ c ∈ q.text.toList := by
  obtain ⟨-, htext⟩ | ⟨-, htext⟩ := toList_join p hq
  · rw [htext, List.mem_append]
  · rw [htext, List.mem_append, List.mem_cons]
    simp [hc]

/-- Below a directory a relative path continues its segments; an empty one at the end of those
makes way. -/
theorem segments_join (p : Path) (hq : q.isAbsolute = false) :
    (p.join q).isAbsolute = p.isAbsolute ∧
      ((p.join q).segments = p.segments ++ q.segments ∨
        ∃ front, p.segments = front ++ [[]] ∧ (p.join q).segments = front ++ q.segments) := by
  have hheads : p.isAbsolute = false → p.text.toList.head? ≠ some '/' := by
    intro h
    simpa [isAbsolute] using h
  have hqhead : q.text.toList.head? ≠ some '/' := by simpa [isAbsolute] using hq
  rw [segments_of_relative hq]
  obtain ⟨hopen, htext⟩ | ⟨hne, htext⟩ := toList_join p hq
  · -- The directory ends in a separator, which has made an empty segment of its own.
    obtain ⟨rest, hrest, habsolute⟩ | hrelative := p.absolute_or_relative
    · have hrestopen : rest = [] ∨ rest.getLast? = some '/' := by
        cases rest with
        | nil => exact .inl rfl
        | cons c cs => simpa [hrest] using hopen
      have hslash : (p.join q).text.toList = '/' :: (rest ++ q.text.toList) := by
        rw [htext, hrest, List.cons_append]
      obtain ⟨front, hfront, hjoined⟩ := cut_append_of_separated hrestopen q.text.toList
      refine ⟨(isAbsolute_of_slash hslash).trans habsolute.symm, .inr ⟨front, ?_, ?_⟩⟩
      · rwa [segments_of_slash hrest]
      · rwa [segments_of_slash hslash]
    · have hjoined := isRelative_of_append htext (hheads hrelative) (.inl hqhead)
      obtain ⟨front, hfront, hcut⟩ := cut_append_of_separated hopen q.text.toList
      refine ⟨hjoined.trans hrelative.symm, .inr ⟨front, ?_, ?_⟩⟩
      · rwa [segments_of_relative hrelative]
      · rwa [segments_of_relative hjoined, htext]
  · -- A separator comes between them, and the segments stand side by side.
    obtain ⟨rest, hrest, habsolute⟩ | hrelative := p.absolute_or_relative
    · have hslash : (p.join q).text.toList = '/' :: (rest ++ '/' :: q.text.toList) := by
        rw [htext, hrest, List.cons_append]
      refine ⟨(isAbsolute_of_slash hslash).trans habsolute.symm, .inl ?_⟩
      rw [segments_of_slash hslash, segments_of_slash hrest, cut_append_cons]
    · have hjoined := isRelative_of_append htext (hheads hrelative) (.inr hne)
      refine ⟨hjoined.trans hrelative.symm, .inl ?_⟩
      rw [segments_of_relative hjoined, segments_of_relative hrelative, htext, cut_append_cons]

/-- Below an absolute path all paths are absolute. -/
theorem isAbsolute_join (hp : p.isAbsolute = true) (q : Path) :
    (p.join q).isAbsolute = true := by
  cases hq : q.isAbsolute with
  | true => rw [join, if_pos hq, hq]
  | false => rw [(segments_join p hq).1, hp]

/-- Names joined to an absolute path leave it absolute. -/
theorem isAbsolute_foldl_join (names : List String) (hp : p.isAbsolute = true) :
    (names.foldl (fun p name => p.join ⟨name⟩) p).isAbsolute = true := by
  induction names generalizing p with
  | nil => exact hp
  | cons name names ih => exact ih (isAbsolute_join hp ⟨name⟩)

end

/-! ## Paths of files -/

/-- A path that ends in a step with a name. -/
structure NamesFile (p : Path) (front : List (List Char)) (last : List Char) : Prop where
  segments_eq : p.segments = front ++ [last]
  not_idle : ¬ IsIdle last
  not_parent : last ≠ ['.', '.']

/-- The segments of the directory that a path with a name is in. -/
def above (p : Path) (front : List (List Char)) : List (List Char) :=
  dropIdle (!p.isAbsolute) front

/-- The directory that a path with a name is in. -/
def directory (p : Path) (front : List (List Char)) : Path :=
  ofSegments p.isAbsolute (p.above front)

namespace NamesFile

variable {p : Path} {front : List (List Char)} {last : List Char}

/-- The segments of the path of a file are tidy. -/
theorem isTidy (h : p.NamesFile front last) : IsTidy p.isAbsolute p.segments :=
  isTidy_segments h.segments_eq h.not_idle

/-- The segments above a file are tidy. -/
theorem isTidy_above (h : p.NamesFile front last) : IsTidy p.isAbsolute (p.above front) := by
  have htidy := h.isTidy.dropLast
  rwa [h.segments_eq, List.dropLast_concat] at htidy

/-- The parent of the path of a file is the directory that the file is in. -/
theorem parent_eq (h : p.NamesFile front last) :
    p.parent = some (p.directory front) := by
  have hparent := h.isTidy.parent_eq (segments_ne_nil p)
  rwa [ofSegments_segments, h.segments_eq, List.dropLast_concat] at hparent

theorem exists_last_char (h : p.NamesFile front last) :
    ∃ front c, p.text.toList = front ++ [c] ∧ c ≠ '/' := by
  have hlast := h.isTidy.exists_last_char (segments_ne_nil p)
  rwa [ofSegments_segments] at hlast

/-- Above the name are the segments of the directory and some that stay in it. -/
theorem exists_idle (h : p.NamesFile front last) : ∃ idle : List (List Char),
    front = p.above front ++ idle ∧ p.segments = p.above front ++ (idle ++ [last]) ∧
      ∀ s ∈ idle, IsIdle s := by
  obtain ⟨idle, hfront, hidle⟩ := Path.exists_idle (!p.isAbsolute) front
  refine ⟨idle, hfront, ?_, hidle⟩
  rw [h.segments_eq, ← List.append_assoc]
  exact congrArg (· ++ [last]) hfront

/-- The last step of the path of a file is its name. -/
theorem getLast?_steps (h : p.NamesFile front last) (segments : List (List Char)) :
    (steps (segments ++ [last])).getLast? = some (.name (String.ofList last)) := by
  have hidle : ¬ (decide (last = []) || decide (last = ['.'])) = true := by
    simpa [IsIdle] using h.not_idle
  have hstep : step? last = some (.name (String.ofList last)) := by
    rw [step?, if_neg hidle, if_neg h.not_parent]
  rw [steps, List.filterMap_append, List.filterMap_cons_some hstep, List.filterMap_nil]
  exact List.getLast?_concat

/-- Whether the path is absolute or not, its last component is the name of its last segment. -/
theorem getLast?_components (h : p.NamesFile front last) :
    p.components.getLast? = some (.name (String.ofList last)) := by
  have hsteps := h.getLast?_steps
  rw [components_eq]
  obtain ⟨rest, hrest, -⟩ | hrelative := p.absolute_or_relative
  · have hcut := (segments_of_slash hrest).symm.trans h.segments_eq
    obtain ⟨front', hfront'⟩ := List.getLast?_eq_some_iff.1 (hsteps front)
    rw [hrest, stepsOf_slash, hcut, hfront', ← List.cons_append]
    exact List.getLast?_concat
  · have hhead : p.text.toList.head? ≠ some '/' := by simpa [isAbsolute] using hrelative
    rw [stepsOf_relative hhead, ← segments_of_relative hrelative, h.segments_eq]
    cases front with
    | nil =>
        have hdot : ([] ++ [last]).head? ≠ some ['.'] := fun e =>
          h.not_idle (.inr (Option.some.inj e))
        rw [relativeSteps_of_head? hdot]
        exact hsteps []
    | cons first others =>
        rw [relativeSteps_append (List.cons_ne_nil first others), List.getLast?_append]
        have hend := hsteps []
        rw [List.nil_append] at hend
        rw [hend]
        rfl

/-- The file name is the last segment. -/
theorem fileName_eq (h : p.NamesFile front last) : p.fileName = some (String.ofList last) := by
  unfold fileName
  rw [h.getLast?_components]
  rfl

/-- The path of a file ends in its name. -/
theorem suffix (h : p.NamesFile front last) : last <:+ p.text.toList := by
  have hends : ∀ s, cut s = front ++ [last] → last <:+ s := by
    intro s hcut
    obtain ⟨before, segment, rfl, hslash, hbefore⟩ := exists_last_segment s
    have hlast := getLast?_cut_append hslash hbefore
    rw [hcut, List.getLast?_concat] at hlast
    rw [Option.some.inj hlast]
    exact List.suffix_append _ _
  obtain ⟨rest, hrest, -⟩ | hrelative := p.absolute_or_relative
  · rw [hrest]
    have hcut := (segments_of_slash hrest).symm.trans h.segments_eq
    exact (hends rest hcut).trans (List.suffix_cons _ _)
  · exact hends _ ((segments_of_relative hrelative).symm.trans h.segments_eq)

/-- The extension is the end of the last segment. -/
theorem suffix_of_extension (h : p.NamesFile front last) {text : String}
    (hextension : p.extension = some text) : text.toList <:+ last := by
  unfold extension at hextension
  rw [h.fileName_eq, Option.bind_some, String.toList_ofList] at hextension
  dsimp only at hextension
  split at hextension
  · cases hextension
  · split at hextension
    · cases hextension
    · have htext := Option.some.inj hextension
      rw [← htext, String.toList_ofList]
      have htake := List.takeWhile_prefix (· ≠ '.') (l := last.reverse)
      exact List.reverse_prefix.1 (by rwa [List.reverse_reverse])

end NamesFile

/-- With an ending every path has a name. -/
theorem exists_namesFile_append {tail : String} (h : IsEnding tail) (p : Path) :
    (p.append tail).isAbsolute = p.isAbsolute ∧ ∃ front last, p.segments = front ++ [last] ∧
      (p.append tail).NamesFile front (last ++ tail.toList) := by
  obtain ⟨habsolute, front, last, hsegments, happend⟩ := segments_append h.1 p
  have hlength : 2 < (last ++ tail.toList).length := by
    have := h.2
    rw [List.length_append]
    omega
  refine ⟨habsolute, front, last, hsegments, happend, ?_, ?_⟩
  · rintro (e | e) <;> simp [e] at hlength
  · intro e
    simp [e] at hlength

end TypedSql.Path
