import TypedSql.Proofs.Placeholder.Names
import TypedSql.Proofs.Token.Reading

namespace TypedSql.Placeholder

/-! # Placeholders by their places

A place among tokens is where a placeholder starts or it is not, whatever the scan has found before.
The scan leaves out the places inside the placeholders that it finds. It misses nothing by that,
since what a placeholder takes after its first token is a word or a number, and neither of them
starts another one.
-/

section

variable {tokens rest left : List Token} {token : Token} {i j width width' : Nat}
  {name name' : String}

/-! ## What starts at a place -/

/-- A placeholder starts at a place among tokens; it has a name and takes some tokens. -/
inductive StartsAt (tokens : List Token) (i : Nat) : String → Nat → Prop
  | word {w : Word} (mark : tokens[i]? = some (.symbol .colon))
      (named : tokens[i + 1]? = some (.word w)) (nonempty : w.value ≠ "") :
      StartsAt tokens i w.value 2
  | number {digits : String} (mark : tokens[i]? = some (.symbol .colon))
      (named : tokens[i + 1]? = some (.number digits false)) (nonempty : digits ≠ "") :
      StartsAt tokens i digits 2
  | token {name : String} (whole : tokens[i]? = some (.placeholder (":" ++ name)))
      (nonempty : name ≠ "") : StartsAt tokens i name 1

/-- The placeholder that the scan finds when it looks at a place, with the number of its tokens. -/
def foundAt? (tokens : List Token) (i : Nat) : Option (String × Nat) :=
  match tokens.drop i with
  | [] => none
  | token :: rest =>
      (placeholderAt? token rest).map fun (name, left) => (name, rest.length + 1 - left.length)

theorem startsAt_drop : StartsAt (tokens.drop i) 0 name width ↔ StartsAt tokens i name width := by
  have hfirst : (tokens.drop i)[0]? = tokens[i]? := by rw [List.getElem?_drop, Nat.add_zero]
  have hsecond : (tokens.drop i)[0 + 1]? = tokens[i + 1]? := by
    rw [List.getElem?_drop, Nat.zero_add]
  constructor
  · intro h
    cases h with
    | word mark named nonempty => exact .word (hfirst ▸ mark) (hsecond ▸ named) nonempty
    | number mark named nonempty => exact .number (hfirst ▸ mark) (hsecond ▸ named) nonempty
    | token whole nonempty => exact .token (hfirst ▸ whole) nonempty
  · intro h
    cases h with
    | word mark named nonempty => exact .word (hfirst ▸ mark) (hsecond ▸ named) nonempty
    | number mark named nonempty => exact .number (hfirst ▸ mark) (hsecond ▸ named) nonempty
    | token whole nonempty => exact .token (hfirst ▸ whole) nonempty

theorem startsAt_of_placeholderAt? (h : placeholderAt? token rest = some (name, left)) :
    ∃ width, StartsAt (token :: rest) 0 name width ∧ rest.length + 1 = width + left.length := by
  obtain ⟨hcandidate, hname⟩ := placeholderAt?_eq_some.1 h
  unfold candidate? at hcandidate
  split at hcandidate
  · cases hcandidate
    exact ⟨2, .word rfl rfl hname, by rw [List.length_cons]; omega⟩
  · cases hcandidate
    exact ⟨2, .number rfl rfl hname, by rw [List.length_cons]; omega⟩
  · next text =>
      split at hcandidate
      · next chars hchars =>
          cases hcandidate
          have htext : text = ":" ++ String.ofList chars := by
            apply String.toList_injective
            simp [hchars]
          exact ⟨1, .token (by rw [htext]; rfl) hname, Nat.add_comm _ _⟩
      · cases hcandidate
  · cases hcandidate

theorem placeholderAt?_of_startsAt (h : StartsAt (token :: rest) 0 name width) :
    ∃ left, placeholderAt? token rest = some (name, left) ∧
      rest.length + 1 = width + left.length := by
  cases h with
  | @word w mark named nonempty =>
      obtain rfl : token = .symbol .colon := Option.some.inj mark
      cases rest with
      | nil => cases named
      | cons second left =>
          obtain rfl : second = .word w := Option.some.inj named
          exact ⟨left, placeholderAt?_eq_some.2 ⟨rfl, nonempty⟩, by rw [List.length_cons]; omega⟩
  | number mark named nonempty =>
      obtain rfl : token = .symbol .colon := Option.some.inj mark
      cases rest with
      | nil => cases named
      | cons second left =>
          obtain rfl : second = .number name false := Option.some.inj named
          exact ⟨left, placeholderAt?_eq_some.2 ⟨rfl, nonempty⟩, by rw [List.length_cons]; omega⟩
  | token whole nonempty =>
      obtain rfl : token = .placeholder (":" ++ name) := Option.some.inj whole
      refine ⟨rest, placeholderAt?_eq_some.2 ⟨?_, nonempty⟩, Nat.add_comm _ _⟩
      simp [candidate?]

/-- The scan finds what starts at the place that it looks at. -/
theorem foundAt?_eq_some :
    foundAt? tokens i = some (name, width) ↔ StartsAt tokens i name width := by
  rw [← startsAt_drop, foundAt?]
  cases tokens.drop i with
  | nil =>
      refine ⟨nofun, fun h => ?_⟩
      cases h <;> contradiction
  | cons token rest =>
      rw [Option.map_eq_some_iff]
      constructor
      · rintro ⟨⟨found, left⟩, hfound, heq⟩
        cases heq
        obtain ⟨width, hstarts, hlength⟩ := startsAt_of_placeholderAt? hfound
        rwa [hlength, Nat.add_sub_cancel]
      · intro h
        obtain ⟨left, hfound, hlength⟩ := placeholderAt?_of_startsAt h
        refine ⟨(name, left), hfound, ?_⟩
        dsimp only
        rw [hlength, Nat.add_sub_cancel]

theorem foundAt?_eq_none :
    foundAt? tokens i = none ↔ ∀ name width, ¬ StartsAt tokens i name width := by
  simp only [← foundAt?_eq_some, Option.eq_none_iff_forall_ne_some, Prod.forall, ne_eq]

/-! ## What the scan leaves out -/

/-- No token belongs to two placeholders. -/
theorem StartsAt.disjoint (h : StartsAt tokens i name width) (h' : StartsAt tokens j name' width')
    (hlt : i < j) : i + width ≤ j := by
  rcases Nat.lt_or_eq_of_le hlt with hfar | rfl
  · -- Two tokens end here at the latest.
    have hwidth : width ≤ 2 := by cases h <;> decide
    omega
  · cases h with
    | word mark named nonempty =>
        cases h' with
        | word mark' | number mark' => cases named.symm.trans mark'
        | token whole => cases named.symm.trans whole
    | number mark named nonempty =>
        cases h' with
        | word mark' | number mark' => cases named.symm.trans mark'
        | token whole => cases named.symm.trans whole
    | token whole nonempty => exact Nat.le_refl _

/-- The names of the placeholders that start at the places among tokens, in order. -/
def namesByPlace (tokens : List Token) : List String :=
  (List.range tokens.length).filterMap fun i => (foundAt? tokens i).map Prod.fst

theorem namesByPlace_cons (token : Token) (rest : List Token) :
    namesByPlace (token :: rest) =
      ((placeholderAt? token rest).map Prod.fst).toList ++ namesByPlace rest := by
  have hhead : (foundAt? (token :: rest) 0).map Prod.fst =
      (placeholderAt? token rest).map Prod.fst := by
    show ((placeholderAt? token rest).map _).map Prod.fst = _
    rw [Option.map_map]
    rfl
  rw [namesByPlace, List.length_cons, List.range_succ_eq_map, List.filterMap_cons,
    List.filterMap_map, hhead]
  cases (placeholderAt? token rest).map Prod.fst <;> rfl

/-- The scan finds what starts at any place. -/
theorem namesIn_eq_namesByPlace (tokens : List Token) : namesIn tokens = namesByPlace tokens := by
  fun_induction namesIn tokens with
  | case1 => rfl
  | case2 token rest name left h _ ih =>
      rw [namesByPlace_cons, h, ih]
      rcases eq_or_exists_second h with rfl | ⟨second, rfl, hnone⟩
      · rfl
      · -- The second token is left out, and nothing starts there.
        rw [namesByPlace_cons, hnone]
        rfl
  | case3 token rest h ih =>
      rw [namesByPlace_cons, h, ih]
      rfl

/-! ## Steps of the scan by places -/

theorem namesIn_drop_of_startsAt (h : StartsAt tokens i name width) :
    namesIn (tokens.drop i) = name :: namesIn (tokens.drop (i + width)) := by
  rw [← startsAt_drop] at h
  rw [← List.drop_drop]
  generalize tokens.drop i = ahead at h ⊢
  cases ahead with
  | nil => cases h <;> contradiction
  | cons token rest =>
      obtain ⟨left, hfound, hlength⟩ := placeholderAt?_of_startsAt h
      rw [namesIn_of_some hfound]
      rcases eq_or_exists_second hfound with rfl | ⟨second, rfl, -⟩
      · obtain rfl : width = 1 := by omega
        rfl
      · obtain rfl : width = 2 := by rw [List.length_cons] at hlength; omega
        rfl

theorem namesIn_drop_of_not_startsAt (h : ∀ name width, ¬ StartsAt tokens i name width) :
    namesIn (tokens.drop i) = namesIn (tokens.drop (i + 1)) := by
  rw [← foundAt?_eq_none, foundAt?] at h
  rw [← List.drop_drop]
  generalize tokens.drop i = ahead at h ⊢
  cases ahead with
  | nil => rfl
  | cons token rest => exact namesIn_of_none (Option.map_eq_none_iff.1 h)

/-- No number in a body is without digits. -/
theorem digits_ne_empty {d : Dialect} {body digits : String}
    (htokens : Lexer.tokens d body = .ok tokens) (h : .number digits false ∈ tokens) :
    digits ≠ "" := by
  rintro rfl
  exact (Lexer.tokens_eq_ok.1 htokens).chars_ne_nil _ h rfl

/-- The names that the scan collects are those of the placeholders at all places, in order. One
starts at a colon directly in front of a word that is not empty or of a number that is not marked
long, and one is a token by itself; no two of them share a token. The scan goes on behind a
placeholder, and at every other place with the very next token, also where a colon has an empty name
after it. The numbers of a body always have digits. -/
theorem namesIn_by_place (tokens : List Token) :
    namesIn tokens =
        (List.range tokens.length).filterMap (fun i => (foundAt? tokens i).map Prod.fst) ∧
      (∀ i name width, foundAt? tokens i = some (name, width) ↔ StartsAt tokens i name width) ∧
      (∀ i j name name' width width', StartsAt tokens i name width →
        StartsAt tokens j name' width' → i < j → i + width ≤ j) ∧
      (∀ i name width, StartsAt tokens i name width →
        namesIn (tokens.drop i) = name :: namesIn (tokens.drop (i + width))) ∧
      (∀ i, (∀ name width, ¬ StartsAt tokens i name width) →
        namesIn (tokens.drop i) = namesIn (tokens.drop (i + 1))) ∧
      (∀ i w, tokens[i]? = some (.symbol .colon) → tokens[i + 1]? = some (.word w) →
        w.value = "" → namesIn (tokens.drop i) = namesIn (tokens.drop (i + 1))) ∧
      ∀ d body, Lexer.tokens d body = .ok tokens → occurrences d body = namesIn tokens ∧
        ∀ digits, .number digits false ∈ tokens → digits ≠ "" := by
  refine ⟨namesIn_eq_namesByPlace tokens, fun _ _ _ => foundAt?_eq_some,
    fun _ _ _ _ _ _ h h' hlt => h.disjoint h' hlt, fun _ _ _ => namesIn_drop_of_startsAt,
    fun _ => namesIn_drop_of_not_startsAt, ?_, ?_⟩
  · intro i w hmark hnamed hempty
    refine namesIn_drop_of_not_startsAt fun name width h => ?_
    cases h with
    | word mark named nonempty =>
        cases hnamed.symm.trans named
        exact nonempty hempty
    | number mark named => cases hnamed.symm.trans named
    | token whole => cases hmark.symm.trans whole
  · intro d body htokens
    refine ⟨?_, fun digits => digits_ne_empty htokens⟩
    rw [occurrences, htokens]

/-- Neither a cast nor a colon in front of another one hides the placeholder behind it. -/
example : namesIn [.symbol .colon, .symbol .colon, .word ⟨"a", none⟩, .symbol .doubleColon,
    .word ⟨"b", none⟩, .placeholder ":c", .symbol .colon, .word ⟨"", some '"'⟩] = ["a", "c"] := by
  decide +kernel

end

end TypedSql.Placeholder
