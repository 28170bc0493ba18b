import TypedSql.Proofs.Placeholder.Constants
import TypedSql.Proofs.Placeholder.PlainText
import TypedSql.Proofs.Placeholder.Positions

namespace TypedSql.Placeholder

open Text

/-! # Text between placeholders

Putting markers into a body changes nothing but its placeholders. The text is cut at them once, the
same for both styles: between tokens when the body has tokens, and else in the text itself. What is
written is the same text with a marker in every cut.
-/

/-! ## Segments -/

/-- A text that is cut at placeholders: the part before the first one, and the name of each with the
part behind it. -/
structure Segments where
  first : String
  rest : List (String × String)
  deriving DecidableEq, Repr

/-- The text with something written in every cut. -/
def Segments.fill (g : Segments) (write : String → String) : String :=
  g.first ++ String.join (g.rest.map fun (name, text) => write name ++ text)

/-- The segments of fragments. -/
def segmentsOf : List Fragment → Segments
  | [] => ⟨"", []⟩
  | .text s :: fs => ⟨s ++ (segmentsOf fs).first, (segmentsOf fs).rest⟩
  | .placeholder name :: fs => ⟨"", (name, (segmentsOf fs).first) :: (segmentsOf fs).rest⟩

/-- A fragment with something written for a placeholder. -/
def Fragment.filled (write : String → String) : Fragment → String
  | text s => s
  | placeholder name => write name

theorem names_segmentsOf (fs : List Fragment) :
    (segmentsOf fs).rest.map Prod.fst = fs.filterMap Fragment.name? := by
  induction fs with
  | nil => rfl
  | cons f fs ih =>
      cases f with
      | text s => exact ih
      | placeholder name => exact congrArg (name :: ·) ih

theorem fill_segmentsOf (write : String → String) (fs : List Fragment) :
    (segmentsOf fs).fill write = String.join (fs.map (Fragment.filled write)) := by
  induction fs with
  | nil => rfl
  | cons f fs ih =>
      rw [List.map_cons, String.join_cons, ← ih]
      cases f with
      | text s => exact String.append_assoc
      | placeholder name =>
          rw [segmentsOf, Segments.fill, List.map_cons, String.join_cons, String.empty_append,
            String.append_assoc]
          rfl

/-! ## Markers -/

/-- The marker of a name in a body with the given names: its number among them, repeats left out,
or a question mark. -/
def marker (style : Style) (names : List String) (name : String) : String :=
  match style with
  | .numbered => s!"${names.eraseDups.idxOf name + 1}"
  | .questionMark => "?"

section

variable {bound all names : List String} {name : String}

/-- A name keeps its place when more names are bound. -/
theorem idxOf_of_prefix (hmem : name ∈ bound) (h : bound <+: all) :
    all.idxOf name = bound.idxOf name := by
  obtain ⟨more, rfl⟩ := h
  exact List.idxOf_append_of_mem hmem

theorem map_text_piecesFrom_numbered {fs : List Fragment}
    (h : (fs.filterMap Fragment.name?).foldl addName bound <+: all) :
    (piecesFrom .numbered bound fs).map Piece.text =
      fs.map (Fragment.filled fun name => s!"${all.idxOf name + 1}") := by
  induction fs generalizing bound with
  | nil => rfl
  | cons f fs ih =>
      cases f with
      | text s => exact congrArg (s :: ·) (ih h)
      | placeholder name =>
          have hprefix : addName bound name <+: all := (prefix_foldl_addName _ _).trans h
          have hplace := idxOf_of_prefix (mem_addName bound name) hprefix
          rw [piecesFrom, List.map_cons, List.map_cons, Fragment.filled, hplace]
          exact congrArg (_ :: ·) (ih h)

theorem map_text_piecesFrom_questionMark (fs : List Fragment) :
    (piecesFrom .questionMark bound fs).map Piece.text =
      fs.map (Fragment.filled fun _ => "?") := by
  induction fs generalizing bound with
  | nil => rfl
  | cons f fs ih =>
      cases f with
      | text s => exact congrArg (s :: ·) ih
      | placeholder name => exact congrArg ("?" :: ·) ih

end

/-- What is written is the text with the marker of its name for every placeholder. -/
theorem sql_withMarkers_fill (d : Dialect) (body : String) (style : Style) :
    (withMarkers d body style).sql =
      (segmentsOf (fragments d body)).fill (marker style (occurrences d body)) := by
  rw [sql_withMarkers, fill_segmentsOf]
  congr 1
  cases style with
  | numbered =>
      have hall : ((fragments d body).filterMap Fragment.name?).foldl addName [] <+:
          (occurrences d body).eraseDups := by
        rw [← occurrences_eq, ← distinct_eq_eraseDups]
        exact List.prefix_rfl
      exact map_text_piecesFrom_numbered hall
  | questionMark => exact map_text_piecesFrom_questionMark _

/-! ## Segments of tokens -/

/-- A placeholder among tokens, with the tokens behind it. -/
structure Window where
  name : String
  tokens : List Token
  behind : List Token

/-- The texts of tokens, one after another. -/
def textOf (tokens : List Token) : String := String.join (tokens.map Token.text)

/-- Tokens are cut at windows, and the tokens between them have the texts of the segments. -/
structure CutAt (tokens before : List Token) (windows : List Window) (g : Segments) : Prop where
  tokens_eq : tokens = before ++ windows.flatMap fun w => w.tokens ++ w.behind
  placeholder : ∀ w ∈ windows, w.name ≠ "" ∧ IsPlaceholder (":" ++ w.name) w.tokens
  first : g.first = textOf before
  rest : g.rest = windows.map fun w => (w.name, textOf w.behind)

theorem exists_cutAt (tokens : List Token) :
    ∃ before windows, CutAt tokens before windows (segmentsOf (fragmentsOf tokens)) := by
  fun_induction fragmentsOf tokens with
  | case1 => exact ⟨[], [], rfl, by simp, rfl, rfl⟩
  | case2 token rest name left h _ ih =>
      -- The tokens before the next cut are those behind this placeholder.
      obtain ⟨before, windows, hcut⟩ := ih
      obtain ⟨hcandidate, hname⟩ := placeholderAt?_eq_some.1 h
      obtain ⟨window, htokens, hwindow⟩ := candidate?_eq_some.1 hcandidate
      refine ⟨[], ⟨name, window, before⟩ :: windows, ?_, ?_, rfl, ?_⟩
      · rw [htokens, hcut.tokens_eq]
        simp
      · rw [List.forall_mem_cons]
        exact ⟨⟨hname, hwindow⟩, hcut.placeholder⟩
      · rw [segmentsOf, hcut.first, hcut.rest, List.map_cons]
  | case3 token rest h ih =>
      obtain ⟨before, windows, hcut⟩ := ih
      refine ⟨token :: before, windows, ?_, hcut.placeholder, ?_, hcut.rest⟩
      · rw [hcut.tokens_eq, List.cons_append]
      · rw [segmentsOf, hcut.first, textOf, textOf, List.map_cons, String.join_cons]

/-! ## Segments of plain text -/

/-- A colon and its word give back the text that they are taken from. -/
theorem ofList_of_wordAfter? {s word left : List Char} (h : wordAfter? s = some (word, left)) :
    String.ofList s = ":" ++ String.ofList word ++ String.ofList left := by
  obtain ⟨rest, rfl, rfl, rfl, -⟩ := exists_of_wordAfter? h
  have hrest : rest.takeWhile isWordChar ++ rest.dropWhile isWordChar = rest :=
    List.takeWhile_append_dropWhile
  rw [String.append_assoc, ← String.ofList_append, hrest]
  exact String.ofList_cons

theorem filled_scanText {fuel : Nat} {s : List Char} (h : s.length ≤ fuel) :
    String.join ((scanText fuel s).map (Fragment.filled (":" ++ ·))) = String.ofList s := by
  induction fuel generalizing s with
  | zero =>
      cases List.length_eq_zero_iff.1 (Nat.le_zero.1 h)
      rfl
  | succ fuel ih =>
      cases s with
      | nil => rfl
      | cons c rest =>
          have hrest : rest.length ≤ fuel := Nat.le_of_succ_le_succ h
          rw [scanText, String.ofList_cons]
          split
          · next word left hfound =>
              -- The character before the placeholder is a fragment of its own.
              obtain ⟨-, hword⟩ : c ≠ ':' ∧ wordAfter? rest = some (word, left) := by
                simpa using hfound
              have hleft := ih ((length_left_le hword).trans hrest)
              rw [List.map_cons, List.map_cons, String.join_cons, String.join_cons, hleft,
                ofList_of_wordAfter? hword]
              rfl
          · rw [List.map_cons, String.join_cons, ih hrest]
            rfl

theorem filled_ofText (s : List Char) :
    String.join ((ofText s).map (Fragment.filled (":" ++ ·))) = String.ofList s := by
  unfold ofText
  split
  · next word left h =>
      rw [List.map_cons, String.join_cons, filled_scanText le_rfl, ofList_of_wordAfter? h]
      rfl
  · exact filled_scanText le_rfl

/-- Only placeholders are touched. The body is cut at them, in the same way for both styles, and
what is written has a marker in every cut. The cuts are between the tokens of the body if it has
any, around the tokens of each placeholder; else the body is its segments with a colon and the name
in every cut. -/
theorem withMarkers_fill (d : Dialect) (body : String) :
    ∃ g : Segments, g.rest.map Prod.fst = occurrences d body ∧
      (∀ style, (withMarkers d body style).sql = g.fill (marker style (occurrences d body))) ∧
      (∀ tokens, Lexer.tokens d body = .ok tokens →
        ∃ before windows, CutAt tokens before windows g) ∧
      ∀ e, Lexer.tokens d body = .error e → body = g.fill (":" ++ ·) := by
  refine ⟨segmentsOf (fragments d body), ?_, sql_withMarkers_fill d body, ?_, ?_⟩
  · rw [names_segmentsOf, occurrences_eq]
  · intro tokens htokens
    rw [fragments, htokens]
    exact exists_cutAt tokens
  · intro e he
    rw [fragments, he, fill_segmentsOf, filled_ofText, String.ofList_toList]

end TypedSql.Placeholder
