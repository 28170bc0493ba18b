import TypedSql.Proofs.Token.Agree
import TypedSql.Proofs.Token.Written

namespace TypedSql.Lexer

open Text

/-! # Tokens that are written as they were read

Names, numbers, operators, comments, dollar strings and placeholders are written out as the text
they were read from. Each of them is read again in front of any text that agrees with the one that
followed it (`ReadBack`).
-/

/-- The reading `t` of the front of a text takes what `t` is written as, without `first`, and reads
`t` again in front of every text that agrees with what is left. -/
def ReadBack (read : List Char → Token → List Char → Prop) (first rest : List Char) (t : Token)
    (left : List Char) : Prop :=
  ∃ u, t.chars = first ++ u ∧ rest = u ++ left ∧
    ∀ after, Agree left after → read (u ++ after) t after

section

variable {d : Dialect} {rest left : List Char} {t : Token}

/-! ## Names -/

/-- A word is read back from its own text. -/
theorem bareWord_readBack {first : List Char} (h : bareWord d first rest = (t, left)) :
    ReadBack (fun s t left => bareWord d first s = (t, left)) first rest t left := by
  cases h
  refine ⟨rest.takeWhile d.isNamePart, by simp, by simp, ?_⟩
  intro after hr
  have hafter := hr.outside (alike_isNamePart d) (outside_dropWhile _ _)
  have hname : ∀ c ∈ rest.takeWhile d.isNamePart, d.isNamePart c = true := fun c => mem_takeWhile
  simp only [bareWord, takeWhile_append_of_outside hname hafter,
    dropWhile_append_of_outside hname hafter]

/-! ## Comments -/

/-- A comment to the end of the line is read back from its own text. -/
theorem lineComment_readBack {opening : String} (h : lineComment opening rest = (t, left)) :
    ReadBack (fun s t left => lineComment opening s = (t, left)) opening.toList rest t left := by
  have hline : ∀ c ∈ rest.takeWhile (fun c => decide (c ≠ '\n')), decide (c ≠ '\n') = true :=
    fun c => mem_takeWhile
  have hrest := List.takeWhile_append_dropWhile (p := fun c => decide (c ≠ '\n')) (l := rest)
  have hout := outside_dropWhile (fun c => decide (c ≠ '\n')) rest
  unfold lineComment at h
  generalize rest.takeWhile (fun c => decide (c ≠ '\n')) = line at *
  generalize rest.dropWhile (fun c => decide (c ≠ '\n')) = next at *
  subst hrest
  cases next with
  | nil =>
      -- A comment without a line break is the end of the text.
      cases h
      refine ⟨line, by simp, rfl, ?_⟩
      intro after hr
      rw [hr.nil_right]
      simp only [lineComment, takeWhile_append_of_outside hline (outside_nil _),
        dropWhile_append_of_outside hline (outside_nil _)]
  | cons c next =>
      -- The line break belongs to the comment, and what follows it does not matter.
      cases h
      refine ⟨line ++ [c], by simp, by simp, ?_⟩
      intro after _
      have hend : Outside (fun c => decide (c ≠ '\n')) (c :: after) :=
        outside_cons.2 (outside_cons.1 hout)
      rw [List.append_assoc, List.singleton_append]
      simp only [lineComment, takeWhile_append_of_outside hline hend,
        dropWhile_append_of_outside hline hend]

/-- A content that is longer by one character ends with the closing when the shorter one does. -/
theorem closing_suffix_cons {c : Char} {content : List Char}
    (h : content = ['/'] ∧ c = '*' ∨ ['*', '/'] <:+ content) : ['*', '/'] <:+ c :: content := by
  rcases h with ⟨rfl, rfl⟩ | h
  · exact List.suffix_rfl
  · exact h.trans (List.suffix_cons _ _)

/-- The content of a comment is found without regard to what comes after it. -/
theorem blockContent_local {depth : Nat} {last : Char} {content : List Char}
    (h : blockContent depth last rest = some (content, left)) :
    rest = content ++ left ∧ (content = ['/'] ∧ last = '*' ∨ ['*', '/'] <:+ content) ∧
      ∀ after, blockContent depth last (content ++ after) = some (content, after) := by
  -- The content is what is taken as it is, so reading it again takes the same steps whatever
  -- follows. That it ends with the closing only shows at the last step.
  fun_induction blockContent depth last rest generalizing content left with
  | case1 => simp at h
  | case2 depth last c rest hopen ih =>
      rcases map_cons_eq_some h with ⟨tail, htail, rfl⟩
      rcases ih htail with ⟨hrest, hend, hread⟩
      refine ⟨by simp [hrest], .inr (closing_suffix_cons hend), ?_⟩
      intro after
      simp [blockContent, hopen, hread]
  | case3 last c rest hopen hclose =>
      cases h
      simp only [Bool.and_eq_true, decide_eq_true_eq] at hclose
      refine ⟨rfl, .inl ⟨by rw [hclose.2], hclose.1⟩, ?_⟩
      intro after
      simp [blockContent, hclose]
  | case4 last c rest hopen hclose depth ih =>
      rcases map_cons_eq_some h with ⟨tail, htail, rfl⟩
      rcases ih htail with ⟨hrest, hend, hread⟩
      refine ⟨by simp [hrest], .inr (closing_suffix_cons hend), ?_⟩
      intro after
      simp [blockContent, hopen, hclose, hread]
  | case5 depth last c rest hopen hclose ih =>
      rcases map_cons_eq_some h with ⟨tail, htail, rfl⟩
      rcases ih htail with ⟨hrest, hend, hread⟩
      refine ⟨by simp [hrest], .inr (closing_suffix_cons hend), ?_⟩
      intro after
      simp [blockContent, hopen, hclose, hread]

/-- A comment is read back from its own text. -/
theorem blockComment_readBack (h : blockComment rest = .ok (t, left)) :
    ReadBack (fun s t left => blockComment s = .ok (t, left)) ['/', '*'] rest t left := by
  unfold blockComment at h
  split at h
  · next content left' hcontent =>
      cases h
      rcases blockContent_local hcontent with ⟨hrest, hend | ⟨inner, rfl⟩, hread⟩
      · simp at hend
      · refine ⟨inner ++ ['*', '/'], by simp, hrest, ?_⟩
        intro after _
        simp only [blockComment, hread]
  · simp at h

/-- Where the texts agree, a comment starts in both or in none. -/
theorem comment_none_of_agree {c : Char} {s t : List Char} (hr : Agree s t)
    (h : comment d c s = none) : comment d c t = none := by
  unfold comment
  split
  · rcases hr.eq_cons (by decide) with ⟨s, rfl, _⟩
    simp [comment] at h
  · rcases hr.eq_cons (by decide) with ⟨s, rfl, _⟩
    simp [comment] at h
  · simpa [comment] using h
  · rfl

/-! ## Dollar strings and placeholders -/

/-- The content of a dollar string is found without regard to what comes after it. -/
theorem dollarContent_local {afterDollar : Bool} {content : List Char}
    (h : dollarContent afterDollar rest = some (content, left)) :
    ∃ u, (if afterDollar then '$' :: u else u) = content ++ ['$', '$'] ∧ rest = u ++ left ∧
      ∀ after, dollarContent afterDollar (u ++ after) = some (content, after) := by
  -- A dollar sign is put into the content only once it is known that no other one follows it.
  fun_induction dollarContent afterDollar rest generalizing content left with
  | case1 => simp at h
  | case2 rest =>
      cases h
      exact ⟨['$'], rfl, rfl, fun after => by simp [dollarContent]⟩
  | case3 c rest hc ih =>
      rcases Option.map_eq_some_iff.1 h with ⟨⟨tail, left'⟩, htail, heq⟩
      cases heq
      rcases ih htail with ⟨u, hu, rfl, hread⟩
      refine ⟨c :: u, by simpa using hu, rfl, ?_⟩
      intro after
      simp [dollarContent, hc, hread]
  | case4 afterDollar rest hd ih =>
      rcases ih h with ⟨u, hu, rfl, hread⟩
      refine ⟨'$' :: u, by simpa [hd] using hu, rfl, ?_⟩
      intro after
      simp [dollarContent, hd, hread]
  | case5 afterDollar c rest hd hc ih =>
      rcases map_cons_eq_some h with ⟨tail, htail, rfl⟩
      rcases ih htail with ⟨u, hu, rfl, hread⟩
      refine ⟨c :: u, by simpa [hd] using hu, rfl, ?_⟩
      intro after
      simp [dollarContent, hd, hc, hread]

/-- The end of a tagged string belongs to what is gathered up to its last dollar sign. `wanted` is
what of the tag has still to come. -/
theorem taggedContent_local {tag : List Char} {wanted : Option (List Char)} {content : List Char}
    (h : taggedContent tag wanted rest = some (content, left)) :
    (wanted = some content ∨ '$' :: tag <:+ content) ∧ rest = content ++ '$' :: left ∧
      ∀ after, taggedContent tag wanted (content ++ '$' :: after) = some (content, after) := by
  -- Every character that does not end the string is the front of a content that is read already;
  -- the last two cases tell whether it goes on with the tag.
  fun_induction taggedContent tag wanted rest generalizing content left with
  | case1 => simp at h
  | case2 rest =>
      cases h
      exact ⟨.inl rfl, rfl, fun after => by simp [taggedContent]⟩
  | case3 c rest hc ih =>
      rcases map_cons_eq_some h with ⟨tail, htail, rfl⟩
      rcases ih htail with ⟨hend, hrest, hread⟩
      have hend' : '$' :: tag <:+ tail := hend.resolve_left (by simp)
      refine ⟨.inr (hend'.trans (List.suffix_cons _ _)), by simp [hrest], ?_⟩
      intro after
      simp [taggedContent, hc, hread]
  | case4 c rest t wanted ih =>
      rcases map_cons_eq_some h with ⟨tail, htail, rfl⟩
      rcases ih htail with ⟨hend, hrest, hread⟩
      refine ⟨?_, by simp [hrest], fun after => ?_⟩
      · rcases hend with hend | hend
        · split at hend
          · next hc =>
              left
              cases hend
              rw [hc]
          · simp at hend
        · exact .inr (hend.trans (List.suffix_cons _ _))
      · simp [taggedContent, hread]
  | case5 c rest ih =>
      rcases map_cons_eq_some h with ⟨tail, htail, rfl⟩
      rcases ih htail with ⟨hend, hrest, hread⟩
      refine ⟨.inr ?_, by simp [hrest], fun after => ?_⟩
      · rcases hend with hend | hend
        · split at hend
          · next hc =>
              cases hend
              simp [hc]
          · simp at hend
        · exact hend.trans (List.suffix_cons _ _)
      · simp [taggedContent, hread]

/-- The characters of the tag of a dollar string. -/
def isTagChar (c : Char) : Bool := isAlphanumeric c || c == '_'

theorem isTagChar_dollar : isTagChar '$' = false := by
  simp [isTagChar, isAlphanumeric_of_ascii]

theorem dollar_eq (h : rest.head? ≠ some '$') :
    dollar rest = match rest.dropWhile isTagChar with
      | '$' :: after =>
          match taggedContent (rest.takeWhile isTagChar) none after with
          | some (content, left) =>
              .ok (.dollarString (some (String.ofList (rest.takeWhile isTagChar)))
                (String.ofList
                  (content.take (content.length - ((rest.takeWhile isTagChar).length + 1)))), left)
          | none => .error ⟨.openTaggedString, []⟩
      | left => .ok (.placeholder (String.ofList ('$' :: rest.takeWhile isTagChar)), left) := by
  unfold dollar
  split
  · exact absurd rfl h
  · rfl

/-- What stands in front of a dollar sign that does not follow another one. -/
theorem head?_tag_append {tag s : List Char} (htag : ∀ c ∈ tag, isTagChar c = true)
    (h : tag = [] → s.head? ≠ some '$') : (tag ++ s).head? ≠ some '$' := by
  cases tag with
  | nil => exact h rfl
  | cons c tag =>
      have hc := htag c (by simp)
      rintro heq
      cases heq
      rw [isTagChar_dollar] at hc
      exact absurd hc (by simp)

/-- A string between doubled dollar signs. -/
theorem dollarDoubled_readBack {s : List Char} (h : dollar ('$' :: s) = .ok (t, left)) :
    ReadBack (fun s t left => dollar s = .ok (t, left)) ['$'] ('$' :: s) t left := by
  unfold dollar at h
  simp only at h
  split at h
  · next content left' hcontent =>
      cases h
      rcases dollarContent_local hcontent with ⟨u, hu, rfl, hread⟩
      simp only [Bool.false_eq_true, if_false] at hu
      refine ⟨'$' :: u, by simp [hu], rfl, ?_⟩
      intro after _
      simp only [List.cons_append, dollar, hread]
  · simp at h

/-- A string between dollar signs with a tag: what is gathered has the closing tag at its end. -/
theorem dollarTagged_readBack {tag s content : List Char} (htag : ∀ c ∈ tag, isTagChar c = true)
    (hne : tag ≠ []) (h : taggedContent tag none s = some (content, left)) :
    ReadBack (fun s t left => dollar s = .ok (t, left)) ['$'] (tag ++ '$' :: s)
      (.dollarString (some (String.ofList tag))
        (String.ofList (content.take (content.length - (tag.length + 1))))) left := by
  rcases taggedContent_local h with ⟨hend, rfl, hread⟩
  rcases hend.resolve_left (by simp) with ⟨inner, rfl⟩
  refine ⟨tag ++ '$' :: (inner ++ '$' :: (tag ++ ['$'])), by simp, by simp, ?_⟩
  intro after _
  have hdollar : Outside isTagChar ('$' :: (inner ++ '$' :: (tag ++ '$' :: after))) :=
    outside_cons.2 isTagChar_dollar
  have hread := hread after
  simp only [List.append_assoc, List.cons_append, List.nil_append] at hread ⊢
  rw [dollar_eq (head?_tag_append htag fun hnil => absurd hnil hne),
    takeWhile_append_of_outside htag hdollar, dropWhile_append_of_outside htag hdollar]
  simp [hread]

/-- A dollar sign with what would be a tag is a placeholder where no other dollar sign follows. -/
theorem dollarName_readBack {name : List Char} (hname : ∀ c ∈ name, isTagChar c = true)
    (hout : Outside isTagChar left) (hleft : left.head? ≠ some '$') :
    ReadBack (fun s t left => dollar s = .ok (t, left)) ['$'] (name ++ left)
      (.placeholder (String.ofList ('$' :: name))) left := by
  refine ⟨name, by simp, rfl, ?_⟩
  intro after hr
  have hafter := hr.outside (p := isTagChar) alike_isTagChar hout
  have hhead : after.head? ≠ some '$' := hr.head?_ne (by decide) hleft
  show dollar (name ++ after) = .ok (.placeholder _, after)
  rw [dollar_eq (head?_tag_append hname fun _ => hhead),
    takeWhile_append_of_outside hname hafter, dropWhile_append_of_outside hname hafter]
  split
  · exact absurd rfl hhead
  · rfl

/-- A dollar string or a placeholder is read back from its own text. -/
theorem dollar_readBack (h : dollar rest = .ok (t, left)) :
    ReadBack (fun s t left => dollar s = .ok (t, left)) ['$'] rest t left := by
  by_cases hdouble : rest.head? = some '$'
  · rcases List.head?_eq_some_iff.1 hdouble with ⟨s, rfl⟩
    exact dollarDoubled_readBack h
  · rw [dollar_eq hdouble] at h
    have htag : ∀ c ∈ rest.takeWhile isTagChar, isTagChar c = true := fun c => mem_takeWhile
    have hout := outside_dropWhile isTagChar rest
    have hrest := List.takeWhile_append_dropWhile (p := isTagChar) (l := rest)
    generalize rest.takeWhile isTagChar = tag at *
    generalize rest.dropWhile isTagChar = next at *
    subst hrest
    split at h
    · next s =>
        have hne : tag ≠ [] := by
          rintro rfl
          exact hdouble rfl
        split at h
        · next content left' hcontent =>
            cases h
            exact dollarTagged_readBack htag hne hcontent
        · simp at h
    · next s hnext =>
        cases h
        exact dollarName_readBack htag hout (head?_ne_of_ne_cons hnext)

end

end TypedSql.Lexer
