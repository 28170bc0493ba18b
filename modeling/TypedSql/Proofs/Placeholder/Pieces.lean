import TypedSql.Placeholder

namespace TypedSql.Placeholder

/-! # What is written for a body

Names are taken from a body by one loop over its tokens and markers are put into it by another.
Both cut the body into the same fragments. A body with positions is then written piece by piece: the
text between placeholders is copied, and every placeholder gets a marker. The markers of the
numbered style are numbers of names in the list of names bound so far, which only grows at its end.
-/

/-! ## Fragments of a body -/

/-- The fragments of a list of tokens: its placeholders, and the text of each token between them. -/
def fragmentsOf : List Token → List Fragment
  | [] => []
  | token :: rest =>
      match h : placeholderAt? token rest with
      | some (name, left) =>
          have : left.length ≤ rest.length := length_le_of_placeholderAt? h
          .placeholder name :: fragmentsOf left
      | none => .text token.text :: fragmentsOf rest
termination_by tokens => tokens.length

/-- The fragments of a body: found in its tokens, or in its plain text where it has none. -/
def fragments (d : Dialect) (body : String) : List Fragment :=
  match Lexer.tokens d body with
  | .ok tokens => fragmentsOf tokens
  | .error _ => ofText body.toList

section

variable {token : Token} {rest left : List Token} {name : String}

/-- A placeholder is a fragment of its own. -/
theorem fragmentsOf_placeholder (h : placeholderAt? token rest = some (name, left)) :
    fragmentsOf (token :: rest) = .placeholder name :: fragmentsOf left := by
  rw [fragmentsOf]
  split <;> simp_all

/-- A token that starts no placeholder is a fragment of text. -/
theorem fragmentsOf_text (h : placeholderAt? token rest = none) :
    fragmentsOf (token :: rest) = .text token.text :: fragmentsOf rest := by
  rw [fragmentsOf]
  split <;> simp_all

/-- The loop that takes names finds the placeholders of the fragments. -/
theorem namesIn_eq (tokens : List Token) :
    namesIn tokens = (fragmentsOf tokens).filterMap Fragment.name? := by
  fun_induction namesIn tokens with
  | case1 => simp [fragmentsOf]
  | case2 token rest name left h _ ih =>
      rw [fragmentsOf_placeholder h, ih]
      rfl
  | case3 token rest h ih =>
      rw [fragmentsOf_text h, ih]
      rfl

/-- The loop that puts markers in writes the fragments out. -/
theorem rewriteTokens_eq (style : Style) (bound : List String) (tokens : List Token) :
    rewriteTokens style bound tokens = rewriteFragments style bound (fragmentsOf tokens) := by
  fun_induction rewriteTokens style bound tokens with
  | case1 => simp [fragmentsOf, rewriteFragments]
  | case2 bound token rest name left h _ bound' marker hmark written ih =>
      rw [fragmentsOf_placeholder h, rewriteFragments, hmark]
      simp only [written, ih]
  | case3 bound token rest h written ih =>
      rw [fragmentsOf_text h, rewriteFragments]
      simp only [written, ih]

/-- The names that occur in a body are those of its fragments. -/
theorem occurrences_eq (d : Dialect) (body : String) :
    occurrences d body = (fragments d body).filterMap Fragment.name? := by
  unfold occurrences fragments
  cases Lexer.tokens d body with
  | ok tokens => exact namesIn_eq tokens
  | error e => rfl

/-- A body is written again fragment by fragment. -/
theorem withMarkers_eq (d : Dialect) (body : String) (style : Style) :
    withMarkers d body style = rewriteFragments style [] (fragments d body) := by
  unfold withMarkers fragments
  cases Lexer.tokens d body with
  | ok tokens => exact rewriteTokens_eq style [] tokens
  | error e => rfl

end

/-! ## Pieces -/

/-- A piece of the written SQL: copied text, or the marker of a placeholder. -/
inductive Piece
  | copied (s : String)
  | marker (s : String) (name : String)
  deriving DecidableEq, Repr, Inhabited

namespace Piece

/-- The text of a piece. -/
def text : Piece → String
  | copied s => s
  | marker s _ => s

/-- The name of the placeholder that a piece stands for. -/
def name? : Piece → Option String
  | copied _ => none
  | marker _ name => some name

/-- The text of a piece that is a marker. -/
def marker? : Piece → Option String
  | copied _ => none
  | marker s _ => some s

end Piece

/-- The pieces that are written for fragments, after the names bound before. -/
def piecesFrom (style : Style) (bound : List String) : List Fragment → List Piece
  | [] => []
  | .text s :: rest => .copied s :: piecesFrom style bound rest
  | .placeholder name :: rest =>
      .marker (mark style bound name).2 name :: piecesFrom style (mark style bound name).1 rest

/-- The pieces that are written for a body. -/
def pieces (d : Dialect) (body : String) (style : Style) : List Piece :=
  piecesFrom style [] (fragments d body)

section

variable (style : Style) (bound : List String) (fs : List Fragment)

/-- The text that is written is that of the pieces. -/
theorem sql_rewriteFragments :
    (rewriteFragments style bound fs).sql =
      String.join ((piecesFrom style bound fs).map Piece.text) := by
  induction fs generalizing bound with
  | nil => rfl
  | cons f fs ih =>
      cases f with
      | text s =>
          rw [piecesFrom, List.map_cons, String.join_cons, ← ih]
          rfl
      | placeholder name =>
          rw [piecesFrom, List.map_cons, String.join_cons, ← ih]
          rfl

/-- The pieces have the names of the fragments. -/
theorem names_piecesFrom :
    (piecesFrom style bound fs).filterMap Piece.name? = fs.filterMap Fragment.name? := by
  induction fs generalizing bound with
  | nil => rfl
  | cons f fs ih =>
      cases f with
      | text s => exact ih bound
      | placeholder name => exact congrArg (name :: ·) (ih _)

/-- The pieces that are copied are the fragments of text. -/
theorem copied_mem_piecesFrom {s : String} :
    Piece.copied s ∈ piecesFrom style bound fs ↔ Fragment.text s ∈ fs := by
  induction fs generalizing bound with
  | nil => simp [piecesFrom]
  | cons f fs ih => cases f <;> simp [piecesFrom, ih]

end

/-- The written SQL is its pieces, one after another. -/
theorem sql_withMarkers (d : Dialect) (body : String) (style : Style) :
    (withMarkers d body style).sql = String.join ((pieces d body style).map Piece.text) :=
  withMarkers_eq d body style ▸ sql_rewriteFragments style [] (fragments d body)

/-- The pieces of a body have the names that occur in it. -/
theorem names_pieces (d : Dialect) (body : String) (style : Style) :
    (pieces d body style).filterMap Piece.name? = occurrences d body :=
  (names_piecesFrom style [] (fragments d body)).trans (occurrences_eq d body).symm

/-! ## Names bound one after another -/

section

variable (bound : List String) (names : List String)

/-- A name that is bound is not bound again. -/
theorem addName_of_mem {bound : List String} {name : String} (h : name ∈ bound) :
    addName bound name = bound := by
  simp [addName, h]

/-- A name that is not bound is bound last. -/
theorem addName_of_not_mem {bound : List String} {name : String} (h : name ∉ bound) :
    addName bound name = bound ++ [name] := by
  simp [addName, h]

/-- Names that are bound stay bound in their places. -/
theorem prefix_addName (name : String) : bound <+: addName bound name := by
  by_cases h : name ∈ bound
  · simp [addName_of_mem h]
  · rw [addName_of_not_mem h]
    exact List.prefix_append _ _

/-- A name is bound once it is added. -/
theorem mem_addName (name : String) : name ∈ addName bound name := by
  by_cases h : name ∈ bound
  · rwa [addName_of_mem h]
  · simp [addName_of_not_mem h]

/-- Names that are bound stay bound in their places, however many follow. -/
theorem prefix_foldl_addName : bound <+: names.foldl addName bound := by
  induction names generalizing bound with
  | nil => exact List.prefix_rfl
  | cons name names ih => exact (prefix_addName bound name).trans (ih _)

/-- Names are bound without repeats, those not bound before in the order of their first
occurrence. -/
theorem foldl_addName :
    names.foldl addName bound = bound ++ (names.filter (· ∉ bound)).eraseDups := by
  induction names generalizing bound with
  | nil => simp
  | cons name names ih =>
      rw [List.foldl_cons, ih]
      by_cases h : name ∈ bound
      · simp [addName_of_mem h, h]
      · -- The later repeats of a new name are among the names bound from here on.
        have hmore : (names.filter (· ∉ bound)).filter (fun n => !n == name) =
            names.filter (· ∉ bound ++ [name]) := by
          rw [List.filter_filter]
          refine List.filter_congr fun n _ => ?_
          by_cases hn : n = name <;> simp [hn]
        rw [addName_of_not_mem h, List.filter_cons_of_pos (by simpa using h), List.eraseDups_cons,
          hmore, List.append_assoc, List.singleton_append]

/-- The distinct names are the names without repetitions. -/
theorem distinct_eq_eraseDups : distinct names = names.eraseDups := by
  rw [distinct, foldl_addName, List.nil_append, List.filter_eq_self.2 (by simp)]

end

/-! ## Numbers of placeholders -/

/-- The numbers of the placeholders, each in the list of names bound up to it. -/
def numbersFrom (bound : List String) : List String → List Nat
  | [] => []
  | name :: rest =>
      ((addName bound name).idxOf name + 1) :: numbersFrom (addName bound name) rest

section

variable (bound : List String)

/-- With numbers each name is bound once, in the order of the first occurrences. -/
theorem parameters_rewriteFragments_numbered (fs : List Fragment) :
    (rewriteFragments .numbered bound fs).parameters =
      (fs.filterMap Fragment.name?).foldl addName bound := by
  induction fs generalizing bound with
  | nil => rfl
  | cons f fs ih =>
      cases f with
      | text s => exact ih bound
      | placeholder name => exact ih (addName bound name)

/-- With question marks each occurrence is bound. -/
theorem parameters_rewriteFragments_questionMark (fs : List Fragment) :
    (rewriteFragments .questionMark bound fs).parameters =
      bound ++ fs.filterMap Fragment.name? := by
  induction fs generalizing bound with
  | nil => exact (List.append_nil bound).symm
  | cons f fs ih =>
      cases f with
      | text s => exact ih bound
      | placeholder name => exact (ih (bound ++ [name])).trans (by simp [Fragment.name?])

/-- The marker of an occurrence is the number of its name. -/
theorem markers_piecesFrom_numbered (fs : List Fragment) :
    (piecesFrom .numbered bound fs).filterMap Piece.marker? =
      (numbersFrom bound (fs.filterMap Fragment.name?)).map fun j => s!"${j}" := by
  induction fs generalizing bound with
  | nil => rfl
  | cons f fs ih =>
      cases f with
      | text s => exact ih bound
      | placeholder name => exact congrArg (s!"${(addName bound name).idxOf name + 1}" :: ·) (ih _)

/-- There is a number for each occurrence. -/
theorem length_numbersFrom (names : List String) :
    (numbersFrom bound names).length = names.length := by
  induction names generalizing bound with
  | nil => rfl
  | cons name names ih => simp [numbersFrom, ih]

/-- Wherever the name is in the names bound later, its number stays that of its place. -/
theorem getElem?_idxOf_of_prefix {bound all : List String} {name : String} (hmem : name ∈ bound)
    (h : bound <+: all) : all[bound.idxOf name]? = some name := by
  rcases h with ⟨more, rfl⟩
  have hlt := List.idxOf_lt_length_of_mem hmem
  rw [List.getElem?_append_left hlt, List.getElem?_eq_getElem hlt, List.getElem_idxOf]

/-- The number of an occurrence is the position of its name among the bound ones, counted from
one. -/
theorem getElem?_numbersFrom {names : List String} {k j : Nat}
    (h : (numbersFrom bound names)[k]? = some j) :
    1 ≤ j ∧ ∃ name, names[k]? = some name ∧ (names.foldl addName bound)[j - 1]? = some name := by
  -- The names bound so far stay in front of all that are bound later, so a number keeps its name.
  induction names generalizing bound k with
  | nil => simp [numbersFrom] at h
  | cons name names ih =>
      cases k with
      | zero =>
          have hj : (addName bound name).idxOf name + 1 = j := by simpa [numbersFrom] using h
          subst hj
          refine ⟨Nat.le_add_left 1 _, name, rfl, ?_⟩
          exact getElem?_idxOf_of_prefix (mem_addName bound name) (prefix_foldl_addName _ names)
      | succ k => exact ih (addName bound name) (by simpa [numbersFrom] using h)

/-- The numbers that are new count on from the names bound before. -/
theorem eraseDups_numbersFrom (names : List String) :
    ((numbersFrom bound names).filter (bound.length < ·)).eraseDups =
      List.range' (bound.length + 1) ((names.foldl addName bound).length - bound.length) := by
  induction names generalizing bound with
  | nil => simp [numbersFrom]
  | cons name names ih =>
      rw [List.foldl_cons, numbersFrom]
      by_cases h : name ∈ bound
      · -- A name that is bound already has a number that is not new.
        have hlt := List.idxOf_lt_length_of_mem h
        rw [addName_of_mem h, List.filter_cons_of_neg (by simp; omega)]
        exact ih bound
      · -- A new name gets the next number, and later ones are counted from there.
        have hnew : (bound ++ [name]).idxOf name = bound.length := by
          simp [List.idxOf_append, h]
        have hmore : ((numbersFrom (bound ++ [name]) names).filter (bound.length < ·)).filter
            (fun n => !n == bound.length + 1) =
              (numbersFrom (bound ++ [name]) names).filter ((bound ++ [name]).length < ·) := by
          rw [List.filter_filter]
          refine List.filter_congr fun n _ => ?_
          rw [Bool.eq_iff_iff]
          simp
          omega
        have hlonger := (prefix_foldl_addName (bound ++ [name]) names).length_le
        rw [List.length_append, List.length_singleton] at hlonger
        rw [addName_of_not_mem h, hnew, List.filter_cons_of_pos (by simp), List.eraseDups_cons,
          hmore, ih, List.length_append, List.length_singleton]
        obtain ⟨m, hm⟩ := Nat.exists_eq_add_of_le hlonger
        rw [hm, show bound.length + 1 + m - bound.length = m + 1 by omega, List.range'_succ,
          show bound.length + 1 + m - (bound.length + 1) = m by omega]

end

end TypedSql.Placeholder
