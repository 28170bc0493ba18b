import TypedSql.Proofs.Analysis.Statements
import TypedSql.Proofs.Placeholder.Constants
import TypedSql.Proofs.Placeholder.Positions
import TypedSql.Proofs.Token.Prolonged

namespace TypedSql

open Outcome

/-! # Statements after the first

Statements after the first add a warning to the contract of the first one. They also add the names
of their placeholders: the parameters of a contract are those of the whole body.
-/

namespace Placeholder

/-! ## Names in a longer body -/

section

variable {d : Dialect} {body more : String} {names : List String}

theorem candidate?_append {token : Token} {rest left : List Token} {name : String}
    (after : List Token) (h : candidate? token rest = some (name, left)) :
    candidate? token (rest ++ after) = some (name, left ++ after) := by
  obtain ⟨tokens, heq, htokens⟩ := candidate?_eq_some.1 h
  refine candidate?_eq_some.2 ⟨tokens, ?_, htokens⟩
  rw [← List.cons_append, heq, List.append_assoc]

/-- A second token of a placeholder is a name or a number, so it stands where there is one. -/
theorem exists_second {rest after left : List Token} {second : Token}
    (hafter : rest = [] → ∀ second ∈ after.head?, Lexer.Nameless second)
    (hnamed : ¬ Lexer.Nameless second) (heq : rest ++ after = second :: left) :
    ∃ rest', rest = second :: rest' := by
  cases rest with
  | nil =>
      rw [List.nil_append] at heq
      exact absurd (hafter rfl second (by simp [heq])) hnamed
  | cons first rest =>
      cases heq
      exact ⟨rest, rfl⟩

/-- The tokens of a placeholder stand before those that are added. -/
theorem exists_of_isPlaceholder {token : Token} {rest after left tokens : List Token}
    {text : String} (h : IsPlaceholder text tokens)
    (hafter : rest = [] → ∀ second ∈ after.head?, Lexer.Nameless second)
    (heq : token :: (rest ++ after) = tokens ++ left) :
    ∃ left', token :: rest = tokens ++ left' := by
  cases h with
  | token text =>
      obtain ⟨rfl, -⟩ := List.cons.inj heq
      exact ⟨rest, rfl⟩
  | word hs w =>
      obtain ⟨rfl, hrest⟩ := List.cons.inj heq
      obtain ⟨rest', rfl⟩ := exists_second hafter id hrest
      exact ⟨rest', rfl⟩
  | number hs digits =>
      obtain ⟨rfl, hrest⟩ := List.cons.inj heq
      obtain ⟨rest', rfl⟩ := exists_second hafter id hrest
      exact ⟨rest', rfl⟩

/-- Whether a placeholder starts is decided by a token and the one after it, which is a name or a
number. -/
theorem placeholderAt?_append_eq_none {token : Token} {rest : List Token} (after : List Token)
    (hafter : rest = [] → ∀ second ∈ after.head?, Lexer.Nameless second)
    (h : placeholderAt? token rest = none) : placeholderAt? token (rest ++ after) = none := by
  refine Option.eq_none_iff_forall_not_mem.2 ?_
  rintro ⟨name, left⟩ hmem
  obtain ⟨hcandidate, hname⟩ := placeholderAt?_eq_some.1 hmem
  obtain ⟨tokens, heq, htokens⟩ := candidate?_eq_some.1 hcandidate
  obtain ⟨left', hfront⟩ := exists_of_isPlaceholder htokens hafter heq
  have hshort : placeholderAt? token rest = some (name, left') :=
    placeholderAt?_eq_some.2 ⟨candidate?_eq_some.2 ⟨tokens, hfront, htokens⟩, hname⟩
  rw [h] at hshort
  cases hshort

theorem placeholderAt?_append {token : Token} {rest left : List Token} {name : String}
    (after : List Token) (h : placeholderAt? token rest = some (name, left)) :
    placeholderAt? token (rest ++ after) = some (name, left ++ after) := by
  obtain ⟨hcandidate, hname⟩ := placeholderAt?_eq_some.1 h
  exact placeholderAt?_eq_some.2 ⟨candidate?_append after hcandidate, hname⟩

/-- The names among the first tokens come first. -/
theorem prefix_namesIn_append (ts after : List Token) : namesIn ts <+: namesIn (ts ++ after) := by
  fun_induction namesIn ts with
  | case1 => exact List.nil_prefix
  | case2 token rest name left h _ ih =>
      rw [List.cons_append, namesIn_of_some (placeholderAt?_append after h)]
      exact List.cons_prefix_cons.2 ⟨rfl, ih⟩
  | case3 token rest h ih =>
      cases rest with
      | nil =>
          rw [namesIn]
          exact List.nil_prefix
      | cons second rest =>
          have hlong := placeholderAt?_append_eq_none after (by simp) h
          rw [List.cons_append, namesIn_of_none hlong]
          exact ih

/-- A last token that gives no name may be left out. -/
theorem namesIn_append_nameless (ts : List Token) {last : Token} (hlast : Lexer.Nameless last) :
    namesIn (ts ++ [last]) = namesIn ts := by
  fun_induction namesIn ts with
  | case1 =>
      have hnone : placeholderAt? last [] = none := by
        cases last with
        | word | number | placeholder => exact absurd hlast id
        | symbol s => cases s <;> rfl
        | _ => rfl
      rw [List.nil_append, namesIn_of_none hnone, namesIn]
  | case2 token rest name left h _ ih =>
      rw [List.cons_append, namesIn_of_some (placeholderAt?_append [last] h), ih]
  | case3 token rest h ih =>
      have hlong := placeholderAt?_append_eq_none [last] (by simp [hlast]) h
      rw [List.cons_append, namesIn_of_none hlong, ih]

/-- The names of a body are the first names of the body that goes on after a semicolon. -/
theorem prefix_occurrences {tokens tokens' : List Token}
    (hbody : Lexer.tokens d body = .ok tokens)
    (hlonger : Lexer.tokens d (body ++ ";" ++ more) = .ok tokens') :
    occurrences d body <+: occurrences d (body ++ ";" ++ more) := by
  have htext : (body ++ ";" ++ more).toList = body.toList ++ ';' :: more.toList := by
    simp [String.toList_append]
  rw [occurrences, occurrences, hbody, hlonger]
  rw [Lexer.tokens_eq_ok] at hbody hlonger
  rw [htext] at hlonger
  rcases hbody.prolonged hlonger with ⟨after, rfl⟩ | ⟨front, last, after, rfl, hlast, rfl⟩
  · exact prefix_namesIn_append tokens after
  · simp only [namesIn_append_nameless front hlast]
    exact prefix_namesIn_append front after

/-! ## Parameters of a longer body -/

/-- The names that are not among the names before them, each once. -/
def newNames (before names : List String) : List String :=
  (names.filter (· ∉ before)).eraseDups

theorem newNames_eq_nil {before names : List String} :
    newNames before names = [] ↔ ∀ name ∈ names, name ∈ before := by
  have hnil : ∀ l : List String, l.eraseDups = [] ↔ l = [] := by
    intro l
    cases l <;> simp [List.eraseDups_cons]
  simp [newNames, hnil, List.filter_eq_nil_iff]

theorem distinct_append (before names : List String) :
    distinct (before ++ names) = distinct before ++ newNames before names := by
  have hmem : ∀ name, name ∈ distinct before ↔ name ∈ before := by
    intro name
    rw [distinct_eq_eraseDups, List.mem_eraseDups]
  have hsplit : distinct (before ++ names) = names.foldl addName (distinct before) :=
    List.foldl_append
  simp only [hsplit, foldl_addName, hmem, newNames]

/-- A body whose placeholders start with those of another has the parameters of that one first, and
then those of the new names. -/
theorem inputs_of_prefix {body' : String} (metadata : Keyed String)
    (h : occurrences d body ++ names = occurrences d body') :
    inputs d body' metadata =
      inputs d body metadata ++ (newNames (occurrences d body) names).map (describe metadata) := by
  rw [inputs, ← h, distinct_append, List.map_append, ← inputs]

end

end Placeholder

namespace Analysis

section

variable {d : Dialect} {schema : Schema} {source source' : String} {file : Option Path}
  {metadata : Keyed String} {body more : String} {first : Statement} {rest : List Statement}
  {r : Contract}

theorem exists_tokens_of_statements {ss : List Statement} (h : statements d body file = .ok ss) :
    ∃ tokens, Lexer.tokens d body = .ok tokens := by
  unfold statements Grammar.parse at h
  split at h
  · cases h
  · next lexemes hlexemes => exact ⟨lexemes.map Lexeme.token, by rw [Lexer.tokens, hlexemes]; rfl⟩

/-- The text that an error would quote has no part in a contract. -/
theorem ofStatement_sql {sql sql' : String} (h : ofStatement schema sql first = .ok r) :
    ofStatement schema sql' first = .ok r := by
  cases first with
  | command kind => cases h
  | _ => exact h

/-- What statements after the first add to the contract of the first one is one warning and the
parameters of the names that only they have. -/
theorem analyze_trailing {file' : Option Path} {next : Statement}
    (hsource : FrontMatter.split source = ⟨metadata, body⟩)
    (hsource' : FrontMatter.split source' = ⟨metadata, body ++ ";" ++ more⟩)
    (hone : statements d body file = .ok [first])
    (hmore : statements d (body ++ ";" ++ more) file' = .ok (first :: next :: rest))
    (hr : analyze d schema source file = .ok r) :
    ∃ added, analyze d schema source' file' = .ok { r with
        inputs := r.inputs ++ added
        diagnostics := r.diagnostics ++ [ignored (rest.length + 1)] } ∧
      (added = [] ↔ ∀ name ∈ Placeholder.occurrences d (body ++ ";" ++ more),
        name ∈ Placeholder.occurrences d body) := by
  obtain ⟨tokens, htokens⟩ := exists_tokens_of_statements hone
  obtain ⟨tokens', htokens'⟩ := exists_tokens_of_statements hmore
  obtain ⟨names, hnames⟩ := Placeholder.prefix_occurrences htokens htokens'
  have hbody : bodyStatements d source file = .ok [first] := by rw [bodyStatements, hsource, hone]
  have hbody' : bodyStatements d source' file' = .ok (first :: next :: rest) := by
    rw [bodyStatements, hsource', hmore]
  -- Both contracts are made of what is found out about the first statement.
  rw [analyze_of_cons hbody] at hr
  obtain ⟨r₁, hr₁, rfl⟩ := map_eq_ok.1 hr
  obtain ⟨found, hfound, rfl⟩ := map_eq_ok.1 hr₁
  have hcontract : contractOf d schema source' first = .ok { found with
      inputs := Placeholder.inputs d (body ++ ";" ++ more) metadata } := by
    rw [contractOf, hsource', ofStatement_sql hfound]
    rfl
  refine ⟨(Placeholder.newNames (Placeholder.occurrences d body) names).map
    (Placeholder.describe metadata), ?_, ?_⟩
  · rw [analyze_of_cons hbody', hcontract, Placeholder.inputs_of_prefix metadata hnames, hsource]
    simp [Except.map]
  · rw [List.map_eq_nil_iff, Placeholder.newNames_eq_nil, ← hnames]
    simp only [List.mem_append]
    constructor
    · rintro h name (hname | hname)
      · exact hname
      · exact h name hname
    · intro h name hname
      exact h name (.inr hname)

end

/-! ## Two bodies -/

/-- A select of one placeholder. -/
def selectOf (text : String) : Statement :=
  .query (.mk [] (.select (.mk "" [] [.plain (.literal (.placeholder text))] "" [] []))
    [.text ""])

/-- The placeholder that a statement selects, where it selects one and nothing else. -/
def selected? : Statement → Option String
  | .query (.mk []
      (.select (.mk opening [] [.plain (.literal (.placeholder text))] into [] []))
      [.text closing]) => if opening = "" ∧ into = "" ∧ closing = "" then some text else none
  | _ => none

theorem eq_selectOf {text : String} {s : Statement} (h : selected? s = some text) :
    s = selectOf text := by
  unfold selected? at h
  split at h
  · split at h
    · next hempty =>
        obtain ⟨rfl, rfl, rfl⟩ := hempty
        cases h
        rfl
    · cases h
  · cases h

theorem statements_eq_selects {d : Dialect} {body : String} (texts : List String)
    (h : (statements d body).toOption.map (·.map selected?) = some (texts.map some)) :
    statements d body = .ok (texts.map selectOf) := by
  obtain ⟨ss, hss, hall⟩ := Option.map_eq_some_iff.1 h
  rw [eq_ok_of_toOption hss]
  refine congrArg Except.ok ?_
  clear h hss
  induction texts generalizing ss with
  | nil => simpa using hall
  | cons text texts ih =>
      obtain ⟨s, ss, rfl, hs, htail⟩ := List.map_eq_cons_iff.1 hall
      rw [eq_selectOf hs, ih ss htail, List.map_cons]

/-- A file without front matter is all body. -/
theorem split_of_not_delimiter {source : String}
    (hmark : source.toList.head? ≠ some (Char.ofNat 0xFEFF))
    (hfront : FrontMatter.isDelimiter (FrontMatter.nextLine source.toList).1 = false) :
    FrontMatter.split source = ⟨Keyed.empty, source⟩ := by
  have hdrop : FrontMatter.dropLeading (Char.ofNat 0xFEFF) source.toList = source.toList := by
    cases hs : source.toList with
    | nil => rfl
    | cons c rest =>
        have hc : c ≠ Char.ofNat 0xFEFF := by simpa [hs] using hmark
        simp [FrontMatter.dropLeading, hc]
  simp [FrontMatter.split, hdrop, hfront]

/-- A second statement with the placeholder of the first adds only the warning. -/
theorem analyze_trailing_same_name :
    ∃ r, analyze .postgres .empty "select :x" = .ok r ∧
      analyze .postgres .empty "select :x; select :x" =
        .ok { r with diagnostics := r.diagnostics ++ [ignored 1] } := by
  have hone : statements .postgres "select :x" = .ok [selectOf ":x"] :=
    statements_eq_selects [":x"] (by decide +kernel)
  have htwo : statements .postgres ("select :x" ++ ";" ++ " select :x") =
      .ok [selectOf ":x", selectOf ":x"] :=
    statements_eq_selects [":x", ":x"] (by decide +kernel)
  have hsource : FrontMatter.split "select :x" = ⟨Keyed.empty, "select :x"⟩ :=
    split_of_not_delimiter (by decide +kernel) (by decide +kernel)
  have hsource' : FrontMatter.split "select :x; select :x" =
      ⟨Keyed.empty, "select :x" ++ ";" ++ " select :x"⟩ :=
    split_of_not_delimiter (by decide +kernel) (by decide +kernel)
  have hnames : ∀ name ∈ Placeholder.occurrences .postgres ("select :x" ++ ";" ++ " select :x"),
      name ∈ Placeholder.occurrences .postgres "select :x" := by
    decide +kernel
  obtain ⟨r, hr⟩ : ∃ r, analyze .postgres .empty "select :x" = .ok r :=
    ⟨_, eq_ok_of_toOption (Option.some_get (by decide +kernel)).symm⟩
  obtain ⟨added, hanalysis, hadded⟩ := analyze_trailing hsource hsource' hone htwo hr
  refine ⟨r, hr, ?_⟩
  rw [hanalysis, hadded.2 hnames, List.append_nil]
  rfl

/-- A second statement with another placeholder gives its parameter to the first. -/
theorem analyze_trailing_new_name :
    statements .postgres "select :x" = .ok [selectOf ":x"] ∧
      statements .postgres "select :x; select :y" = .ok [selectOf ":x", selectOf ":y"] ∧
      (analyze .postgres .empty "select :x").toOption.map Contract.inputs =
        some [.untyped "x"] ∧
      (analyze .postgres .empty "select :x; select :y").toOption.map Contract.inputs =
        some [.untyped "x", .untyped "y"] := by
  have hone : statements .postgres "select :x" = .ok [selectOf ":x"] :=
    statements_eq_selects [":x"] (by decide +kernel)
  have htwo : statements .postgres "select :x; select :y" = .ok [selectOf ":x", selectOf ":y"] :=
    statements_eq_selects [":x", ":y"] (by decide +kernel)
  refine ⟨hone, htwo, ?_, ?_⟩ <;> decide +kernel

end Analysis

end TypedSql
