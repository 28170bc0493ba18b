import TypedSql.Proofs.Text.Ascii

namespace TypedSql.TypeText

open Text

/-! # What a type text means

A type text is built from names, quoted literals and parentheses, with `[]` after an operand for an
array and `|` between operands for a union. `Means` is that grammar; the mark of an array binds
tighter than the bar. `read` reads a text from left to right with one frame for every parenthesis
that is open, and `means_iff` says that it finds exactly the meaning: a text has at most one.
-/

/-! ## The grammar -/

/-- A type. Parentheses only group, so they leave no trace. -/
inductive TypeExpr
  | name (s : String)
  | literal (s : String)
  | array (element : TypeExpr)
  | union (left right : TypeExpr)
  deriving DecidableEq, Repr

/-- A character of a name, which is no blank; the parts of a name have dots between. -/
def isNamePart (c : Char) : Bool :=
  !isBlank c && (isAlphanumeric c || "_$.".toList.contains c)

/-- A quote that a literal may stand between. -/
def isQuote (c : Char) : Bool := c == '\x27' || c == '\x22'

/-- What follows the opening quote of a literal as far as the closing one. A backslash takes the
character after it along. -/
inductive LiteralRest (quote : Char) : List Char → Prop
  | close : LiteralRest quote [quote]
  | escaped (c : Char) {s : List Char} (h : LiteralRest quote s) : LiteralRest quote ('\\' :: c :: s)
  | plain {c : Char} {s : List Char} (hquote : c ≠ quote) (hslash : c ≠ '\\')
      (h : LiteralRest quote s) : LiteralRest quote (c :: s)

/-- How much a text may hold: an operand, or operands with bars between them. -/
inductive Rank
  | operand
  | whole
  deriving DecidableEq, Repr

/-- The text means the type. Blanks may stand around every part. -/
inductive Means : Rank → List Char → TypeExpr → Prop
  | name {n : List Char} (hn : n ≠ []) (hparts : ∀ c ∈ n, isNamePart c = true) :
      Means .operand n (.name (String.ofList n))
  | literal {quote : Char} {s : List Char} (hquote : isQuote quote = true)
      (h : LiteralRest quote s) : Means .operand (quote :: s) (.literal (String.ofList (quote :: s)))
  | group {s : List Char} {e : TypeExpr} (h : Means .whole s e) :
      Means .operand ('(' :: (s ++ [')'])) e
  | array {s gap : List Char} {e : TypeExpr} (h : Means .operand s e)
      (hgap : ∀ c ∈ gap, isBlank c = true) : Means .operand (s ++ '[' :: (gap ++ [']'])) (.array e)
  | blankBefore {c : Char} {s : List Char} {e : TypeExpr} (hc : isBlank c = true)
      (h : Means .operand s e) : Means .operand (c :: s) e
  | blankAfter {c : Char} {s : List Char} {e : TypeExpr} (hc : isBlank c = true)
      (h : Means .operand s e) : Means .operand (s ++ [c]) e
  | single {s : List Char} {e : TypeExpr} (h : Means .operand s e) : Means .whole s e
  | union {s t : List Char} {l r : TypeExpr} (hl : Means .whole s l) (hr : Means .operand t r) :
      Means .whole (s ++ '|' :: t) (.union l r)

/-! ## Reading from left to right -/

/-- The operand that is being read. -/
inductive Slot
  | empty
  | name (gathered : List Char)
  | literal (quote : Char) (gathered : List Char) (escaped : Bool)
  | bracket (element : TypeExpr)
  | done (e : TypeExpr)
  deriving DecidableEq, Repr

/-- What has been read since a parenthesis was opened: the operands before the last bar as one type,
and the operand after it. -/
structure Frame where
  left : Option TypeExpr
  slot : Slot
  deriving DecidableEq, Repr

/-- A type as the right side of a union, where something stands before it. -/
def joined (left : Option TypeExpr) (e : TypeExpr) : TypeExpr :=
  match left with
  | none => e
  | some l => .union l e

/-- The type of an operand that may end here. -/
def Slot.value? : Slot → Option TypeExpr
  | name n => some (.name (String.ofList n))
  | done e => some e
  | _ => none

/-- The type of a frame that may end here. -/
def Frame.value? (f : Frame) : Option TypeExpr := f.slot.value?.map (joined f.left)

/-- Reads a character after an operand that is complete. -/
def stepAfter (left : Option TypeExpr) (e : TypeExpr) (outer : List Frame) (c : Char) :
    Option (List Frame) :=
  if isBlank c then some (⟨left, .done e⟩ :: outer)
  else if c = '[' then some (⟨left, .bracket e⟩ :: outer)
  else if c = '|' then some (⟨some (joined left e), .empty⟩ :: outer)
  else if c = ')' then
    match outer with
    | [] => none
    | f :: outer => some (⟨f.left, .done (joined left e)⟩ :: outer)
  else none

/-- Reads a character; the frame of the innermost parenthesis comes first. -/
def step : List Frame → Char → Option (List Frame)
  | [], _ => none
  | ⟨left, slot⟩ :: outer, c =>
      match slot with
      | .empty =>
          if isBlank c then some (⟨left, .empty⟩ :: outer)
          else if isNamePart c then some (⟨left, .name [c]⟩ :: outer)
          else if isQuote c then some (⟨left, .literal c [c] false⟩ :: outer)
          else if c = '(' then some (⟨none, .empty⟩ :: ⟨left, .empty⟩ :: outer)
          else none
      | .name n =>
          if isNamePart c then some (⟨left, .name (n ++ [c])⟩ :: outer)
          else stepAfter left (.name (String.ofList n)) outer c
      | .literal quote s true => some (⟨left, .literal quote (s ++ [c]) false⟩ :: outer)
      | .literal quote s false =>
          if c = quote then some (⟨left, .done (.literal (String.ofList (s ++ [c])))⟩ :: outer)
          else some (⟨left, .literal quote (s ++ [c]) (c == '\\')⟩ :: outer)
      | .bracket e =>
          if isBlank c then some (⟨left, .bracket e⟩ :: outer)
          else if c = ']' then some (⟨left, .done (.array e)⟩ :: outer)
          else none
      | .done e => stepAfter left e outer c

/-- Reads characters one after another. -/
def run (frames : List Frame) (s : List Char) : Option (List Frame) := s.foldlM step frames

/-- The frame before anything is read. -/
def Frame.start : Frame := ⟨none, .empty⟩

/-- The type that a text is read as. -/
def read (s : List Char) : Option TypeExpr :=
  match run [.start] s with
  | some [f] => f.value?
  | _ => none

/-- Nothing is left to read at the end of a text. -/
@[simp] theorem run_nil (frames : List Frame) : run frames [] = some frames := rfl

/-- A text is read character by character. -/
@[simp] theorem run_cons (frames : List Frame) (c : Char) (s : List Char) :
    run frames (c :: s) = (step frames c).bind (run · s) := rfl

/-- A text of two parts is read one part after the other. -/
theorem run_append (frames : List Frame) (s t : List Char) :
    run frames (s ++ t) = (run frames s).bind (run · t) :=
  List.foldlM_append

/-! ## Characters that are told apart -/

/-- A blank is no part of a name. -/
theorem isNamePart_of_isBlank {c : Char} (h : isBlank c = true) : isNamePart c = false := by
  simp [isNamePart, h]

theorem not_isBlank_of_isNamePart {c : Char} (h : isNamePart c = true) : isBlank c = false := by
  cases hb : isBlank c with
  | false => rfl
  | true =>
      rw [isNamePart_of_isBlank hb] at h
      exact absurd h (by simp)

/-- No mark of the grammar is a blank. -/
theorem isBlank_eq_false {c : Char} (hc : c ∈ "'\"()[]|".toList) : isBlank c = false := by
  have hall : "'\"()[]|".toList.all (fun c => !isBlank c) = true := by decide +kernel
  simpa using List.all_eq_true.1 hall c hc

/-- No mark of the grammar is part of a name. -/
theorem isNamePart_eq_false {c : Char} (hc : c ∈ "'\"()[]|".toList) : isNamePart c = false := by
  have hall : "'\"()[]|".toList.all (fun c => decide (c.toNat < 128) &&
      !(c.isAlpha || c.isDigit || "_$.".toList.contains c)) = true := by decide +kernel
  obtain ⟨hascii, hclass⟩ : c.toNat < 128 ∧
      (c.isAlpha || c.isDigit || "_$.".toList.contains c) = false := by
    simpa using List.all_eq_true.1 hall c hc
  rw [isNamePart, isAlphanumeric_of_ascii hascii, hclass, Bool.and_false]

theorem isQuote_iff {c : Char} : isQuote c = true ↔ c = '\x27' ∨ c = '\x22' := by
  simp [isQuote]

section

variable {left : Option TypeExpr} {slot : Slot} {outer : List Frame} {e : TypeExpr}
  {s t gap : List Char} {c : Char}

/-! ## What is meant is read -/

/-- A character that goes on with no name is read after the operand that it ends. -/
theorem step_of_value (hslot : slot.value? = some e) (hc : isNamePart c = false) :
    step (⟨left, slot⟩ :: outer) c = stepAfter left e outer c := by
  cases slot with
  | name n =>
      cases hslot
      simp [step, hc]
  | done e' =>
      cases hslot
      rfl
  | _ => simp [Slot.value?] at hslot

/-- A blank after an operand ends it. -/
theorem step_blank (hslot : slot.value? = some e) (hc : isBlank c = true) :
    step (⟨left, slot⟩ :: outer) c = some (⟨left, .done e⟩ :: outer) := by
  rw [step_of_value hslot (isNamePart_of_isBlank hc)]
  simp [stepAfter, hc]

/-- A bracket after an operand opens an array of it. -/
theorem step_bracket (hslot : slot.value? = some e) :
    step (⟨left, slot⟩ :: outer) '[' = some (⟨left, .bracket e⟩ :: outer) := by
  rw [step_of_value hslot (isNamePart_eq_false (by decide))]
  rfl

/-- A bar after an operand joins it to the operands on its left. -/
theorem step_bar (hslot : slot.value? = some e) :
    step (⟨left, slot⟩ :: outer) '|' = some (⟨some (joined left e), .empty⟩ :: outer) := by
  rw [step_of_value hslot (isNamePart_eq_false (by decide))]
  rfl

/-- A closing parenthesis after an operand makes the group an operand of the frame outside. -/
theorem step_close {f : Frame} (hslot : slot.value? = some e) :
    step (⟨left, slot⟩ :: f :: outer) ')' = some (⟨f.left, .done (joined left e)⟩ :: outer) := by
  rw [step_of_value hslot (isNamePart_eq_false (by decide))]
  rfl

/-- The characters of a name are gathered one after another. -/
theorem run_name {n : List Char} (gathered : List Char) (hparts : ∀ c ∈ n, isNamePart c = true) :
    run (⟨left, .name gathered⟩ :: outer) n = some (⟨left, .name (gathered ++ n)⟩ :: outer) := by
  induction n generalizing gathered with
  | nil => simp
  | cons c n ih =>
      have hc := hparts c (by simp)
      have hn := ih (gathered ++ [c]) fun x hx => hparts x (List.mem_cons_of_mem c hx)
      simp [step, hc, hn]

/-- The characters of a literal are gathered as far as the quote that closes it. -/
theorem run_literal {quote : Char} (gathered : List Char) (h : LiteralRest quote s)
    (hquote : isQuote quote = true) :
    run (⟨left, .literal quote gathered false⟩ :: outer) s =
      some (⟨left, .done (.literal (String.ofList (gathered ++ s)))⟩ :: outer) := by
  induction h generalizing gathered with
  | close => simp [step]
  | escaped c h ih =>
      have hslash : '\\' ≠ quote := by
        rcases isQuote_iff.1 hquote with rfl | rfl <;> decide
      have hrest := ih (gathered ++ ['\\'] ++ [c])
      simp only [run_cons, step, if_neg hslash, Option.bind_some]
      simpa using hrest
  | @plain c s hne hslash h ih =>
      have hescape : (c == '\\') = false := by simpa using hslash
      have hrest := ih (gathered ++ [c])
      simp only [run_cons, step, if_neg hne, hescape, Option.bind_some]
      simpa using hrest

/-- Blanks between brackets are passed over. -/
theorem run_bracket (hgap : ∀ c ∈ gap, isBlank c = true) :
    run (⟨left, .bracket e⟩ :: outer) gap = some (⟨left, .bracket e⟩ :: outer) := by
  induction gap with
  | nil => rfl
  | cons c gap ih =>
      have hc := hgap c (by simp)
      have hrest := ih fun x hx => hgap x (List.mem_cons_of_mem c hx)
      simp [step, hc, hrest]

/-- An operand fills the slot it is read into, and operands with bars between them fill a frame. -/
def Filled (rank : Rank) (s : List Char) (e : TypeExpr) : Prop :=
  match rank with
  | .operand => ∀ left outer, ∃ slot, slot.value? = some e ∧
      run (⟨left, .empty⟩ :: outer) s = some (⟨left, slot⟩ :: outer)
  | .whole => ∀ outer, ∃ f : Frame, f.value? = some e ∧ run (.start :: outer) s = some (f :: outer)

/-- The meaning of a frame is its last operand joined to what is on its left. -/
theorem value?_frame (h : slot.value? = some e) :
    (Frame.mk left slot).value? = some (joined left e) := by
  simp [Frame.value?, h]

/-- A name fills a place for an operand. -/
theorem Filled.name {n : List Char} (hn : n ≠ []) (hparts : ∀ c ∈ n, isNamePart c = true) :
    Filled .operand n (.name (String.ofList n)) := by
  intro left outer
  refine ⟨.name n, rfl, ?_⟩
  cases n with
  | nil => exact absurd rfl hn
  | cons c n =>
      have hc := hparts c (by simp)
      have hblank := not_isBlank_of_isNamePart hc
      have htail : ∀ x ∈ n, isNamePart x = true := fun x hx =>
        hparts x (List.mem_cons_of_mem c hx)
      have hrest : run (⟨left, .name [c]⟩ :: outer) n = _ := run_name [c] htail
      simpa [step, hblank, hc] using hrest

/-- A literal fills a place for an operand. -/
theorem Filled.literal {quote : Char} (hquote : isQuote quote = true) (h : LiteralRest quote s) :
    Filled .operand (quote :: s) (.literal (String.ofList (quote :: s))) := by
  intro left outer
  refine ⟨.done (.literal (String.ofList (quote :: s))), rfl, ?_⟩
  have hmem : quote ∈ "'\"()[]|".toList := by
    rcases isQuote_iff.1 hquote with rfl | rfl <;> decide
  have hrest : run (⟨left, .literal quote [quote] false⟩ :: outer) s = _ :=
    run_literal [quote] h hquote
  simpa [step, isBlank_eq_false hmem, isNamePart_eq_false hmem, hquote] using hrest

/-- What stands in parentheses is read into a frame of its own, which the slot takes over. -/
theorem Filled.group (h : Filled .whole s e) : Filled .operand ('(' :: (s ++ [')'])) e := by
  intro left outer
  obtain ⟨f, hf, hrun⟩ := h (⟨left, .empty⟩ :: outer)
  obtain ⟨x, hslot, rfl⟩ := Option.map_eq_some_iff.1 hf
  refine ⟨.done (joined f.left x), rfl, ?_⟩
  have hopen : step (⟨left, .empty⟩ :: outer) '(' =
      some (.start :: ⟨left, .empty⟩ :: outer) := rfl
  rw [run_cons, hopen, Option.bind_some, run_append, hrun]
  simp [step_close hslot]

/-- An operand with brackets after it fills a place for an operand. -/
theorem Filled.array (h : Filled .operand s e) (hgap : ∀ c ∈ gap, isBlank c = true) :
    Filled .operand (s ++ '[' :: (gap ++ [']'])) (.array e) := by
  intro left outer
  obtain ⟨slot, hslot, hrun⟩ := h left outer
  refine ⟨.done (.array e), rfl, ?_⟩
  have hclose : step (⟨left, .bracket e⟩ :: outer) ']' =
      some (⟨left, .done (.array e)⟩ :: outer) := rfl
  rw [run_append, hrun, Option.bind_some, run_cons, step_bracket hslot, Option.bind_some,
    run_append, run_bracket hgap]
  simp [hclose]

/-- A blank before an operand leaves the place as it is. -/
theorem Filled.blankBefore (hc : isBlank c = true) (h : Filled .operand s e) :
    Filled .operand (c :: s) e := by
  intro left outer
  obtain ⟨slot, hslot, hrun⟩ := h left outer
  exact ⟨slot, hslot, by simpa [step, hc] using hrun⟩

/-- A blank after an operand leaves the place as it is. -/
theorem Filled.blankAfter (hc : isBlank c = true) (h : Filled .operand s e) :
    Filled .operand (s ++ [c]) e := by
  intro left outer
  obtain ⟨slot, hslot, hrun⟩ := h left outer
  refine ⟨.done e, rfl, ?_⟩
  rw [run_append, hrun]
  simp [step_blank hslot hc]

/-- One operand fills a place for a whole text. -/
theorem Filled.single (h : Filled .operand s e) : Filled .whole s e := by
  intro outer
  obtain ⟨slot, hslot, hrun⟩ := h none outer
  exact ⟨⟨none, slot⟩, value?_frame hslot, hrun⟩

/-- Operands joined by a bar fill a place for a whole text. -/
theorem Filled.union {r : TypeExpr} (hl : Filled .whole s e) (hr : Filled .operand t r) :
    Filled .whole (s ++ '|' :: t) (.union e r) := by
  intro outer
  obtain ⟨f, hf, hrun⟩ := hl outer
  obtain ⟨x, hslot, rfl⟩ := Option.map_eq_some_iff.1 hf
  obtain ⟨slot, hslot', hrun'⟩ := hr (some (joined f.left x)) outer
  refine ⟨⟨some (joined f.left x), slot⟩, value?_frame hslot', ?_⟩
  rw [run_append, hrun, Option.bind_some, run_cons, step_bar hslot, Option.bind_some, hrun']

/-- A text with a meaning is read into a place as this meaning, by induction on why it has it. -/
theorem Means.filled {rank : Rank} (h : Means rank s e) : Filled rank s e := by
  induction h with
  | name hn hparts => exact .name hn hparts
  | literal hquote h => exact .literal hquote h
  | group _ ih => exact .group ih
  | array _ hgap ih => exact .array ih hgap
  | blankBefore hc _ ih => exact .blankBefore hc ih
  | blankAfter hc _ ih => exact .blankAfter hc ih
  | single _ ih => exact .single ih
  | union _ _ ihl ihr => exact .union ihl ihr

end

/-! ## What is read is meant -/

/-- A literal that has been read so far: whatever closes it makes it whole. -/
def Opened (quote : Char) (s : List Char) : Prop :=
  isQuote quote = true ∧
    ∃ body, s = quote :: body ∧ ∀ t, LiteralRest quote t → LiteralRest quote (body ++ t)

/-- The text was read into the slot. -/
inductive SlotText : Slot → List Char → Prop
  | empty {gap : List Char} (hgap : ∀ c ∈ gap, isBlank c = true) : SlotText .empty gap
  | name {gap n : List Char} (hgap : ∀ c ∈ gap, isBlank c = true) (hn : n ≠ [])
      (hparts : ∀ c ∈ n, isNamePart c = true) : SlotText (.name n) (gap ++ n)
  | literal {quote : Char} {gap s : List Char} (hgap : ∀ c ∈ gap, isBlank c = true)
      (h : Opened quote s) : SlotText (.literal quote s false) (gap ++ s)
  | escaped {quote : Char} {gap s : List Char} (hgap : ∀ c ∈ gap, isBlank c = true)
      (h : Opened quote s) :
      SlotText (.literal quote (s ++ ['\\']) true) (gap ++ (s ++ ['\\']))
  | bracket {s gap : List Char} {e : TypeExpr} (h : Means .operand s e)
      (hgap : ∀ c ∈ gap, isBlank c = true) : SlotText (.bracket e) (s ++ '[' :: gap)
  | done {s : List Char} {e : TypeExpr} (h : Means .operand s e) : SlotText (.done e) s

/-- The text was read into the frame. -/
inductive FrameText : Frame → List Char → Prop
  | first {slot : Slot} {s : List Char} (h : SlotText slot s) : FrameText ⟨none, slot⟩ s
  | next {l : TypeExpr} {t s : List Char} {slot : Slot} (hl : Means .whole t l)
      (h : SlotText slot s) : FrameText ⟨some l, slot⟩ (t ++ '|' :: s)

/-- The text was read into the frames. A parenthesis stands where a frame was empty. -/
inductive StackText : List Frame → List Char → Prop
  | bottom {f : Frame} {s : List Char} (h : FrameText f s) : StackText [f] s
  | push {left : Option TypeExpr} {outer : List Frame} {f : Frame} {s t : List Char}
      (hs : StackText (⟨left, .empty⟩ :: outer) s) (h : FrameText f t) :
      StackText (f :: ⟨left, .empty⟩ :: outer) (s ++ '(' :: t)

section

variable {left : Option TypeExpr} {slot : Slot} {outer frames : List Frame} {e : TypeExpr}
  {s t gap : List Char} {c : Char}

/-- Blanks before an operand do not change what it means. -/
theorem Means.prepend_blanks (hgap : ∀ c ∈ gap, isBlank c = true) (h : Means .operand s e) :
    Means .operand (gap ++ s) e := by
  induction gap with
  | nil => exact h
  | cons c gap ih =>
      have hc := hgap c (by simp)
      exact .blankBefore hc (ih fun x hx => hgap x (List.mem_cons_of_mem c hx))

/-- The text of a place that holds an operand means this operand. -/
theorem SlotText.means (h : SlotText slot s) (hslot : slot.value? = some e) :
    Means .operand s e := by
  cases h with
  | name hgap hn hparts =>
      cases hslot
      exact (Means.name hn hparts).prepend_blanks hgap
  | done h =>
      cases hslot
      exact h
  | _ => simp [Slot.value?] at hslot

/-- The slot of a frame may be filled with something else, and nothing before it changes. -/
theorem FrameText.exchange (h : FrameText ⟨left, slot⟩ s) :
    ∃ front t, s = front ++ t ∧ SlotText slot t ∧
      ∀ slot' t', SlotText slot' t' → FrameText ⟨left, slot'⟩ (front ++ t') := by
  cases h with
  | first h => exact ⟨[], s, rfl, h, fun _ _ h' => .first h'⟩
  | @next l front t _ hl h =>
      refine ⟨front ++ ['|'], t, by simp, h, ?_⟩
      intro slot' t' h'
      simpa using FrameText.next hl h'

/-- The text of a frame means its operands joined. -/
theorem FrameText.means (h : FrameText ⟨left, slot⟩ s) (hslot : slot.value? = some e) :
    Means .whole s (joined left e) := by
  cases h with
  | first h => exact .single (h.means hslot)
  | next hl h => exact .union hl (h.means hslot)

/-- The innermost frame may be replaced, and nothing before it changes. -/
theorem StackText.exchange {f : Frame} (h : StackText (f :: outer) s) :
    ∃ front t, s = front ++ t ∧ FrameText f t ∧
      ∀ f' t', FrameText f' t' → StackText (f' :: outer) (front ++ t') := by
  cases h with
  | bottom h => exact ⟨[], s, rfl, h, fun _ _ h' => .bottom h'⟩
  | @push left outer f front t hs h =>
      refine ⟨front ++ ['('], t, by simp, h, ?_⟩
      intro f' t' h'
      simpa using StackText.push hs h'

/-- The text of a stack ends in the text of its innermost place, and another text of a place may
stand there. -/
theorem StackText.innermost (h : StackText (⟨left, slot⟩ :: outer) s) :
    ∃ front t, s = front ++ t ∧ SlotText slot t ∧
      ∀ slot' t', SlotText slot' t' → StackText (⟨left, slot'⟩ :: outer) (front ++ t') := by
  obtain ⟨front, u, rfl, hframe, hreplace⟩ := h.exchange
  obtain ⟨front', t, rfl, hslot, hreplace'⟩ := hframe.exchange
  refine ⟨front ++ front', t, by simp, hslot, ?_⟩
  intro slot' t' h'
  simpa using hreplace _ _ (hreplace' slot' t' h')

/-- What may follow an operand that is complete, and the frames that are left then. -/
theorem stepAfter_cases (h : stepAfter left e outer c = some frames) :
    (isBlank c = true ∧ frames = ⟨left, .done e⟩ :: outer) ∨
      (c = '[' ∧ frames = ⟨left, .bracket e⟩ :: outer) ∨
      (c = '|' ∧ frames = ⟨some (joined left e), .empty⟩ :: outer) ∨
      (c = ')' ∧ ∃ f below, outer = f :: below ∧
        frames = ⟨f.left, .done (joined left e)⟩ :: below) := by
  unfold stepAfter at h
  split at h
  · next hblank => exact .inl ⟨hblank, (Option.some.inj h).symm⟩
  split at h
  · next hc => exact .inr (.inl ⟨hc, (Option.some.inj h).symm⟩)
  split at h
  · next hc => exact .inr (.inr (.inl ⟨hc, (Option.some.inj h).symm⟩))
  split at h
  · next hc =>
      cases outer with
      | nil => cases h
      | cons f below =>
          exact .inr (.inr (.inr ⟨hc, f, below, rfl, (Option.some.inj h).symm⟩))
  · cases h

/-- After an operand a blank, a bracket, a bar or a closing parenthesis may follow. -/
theorem StackText.after (h : StackText (⟨left, slot⟩ :: outer) s) (hslot : slot.value? = some e)
    (hstep : stepAfter left e outer c = some frames) : StackText frames (s ++ [c]) := by
  rcases stepAfter_cases hstep with
    ⟨hblank, rfl⟩ | ⟨rfl, rfl⟩ | ⟨rfl, rfl⟩ | ⟨rfl, f, below, rfl, rfl⟩
  · obtain ⟨front, t, rfl, ht, hreplace⟩ := h.innermost
    have hdone := hreplace (.done e) (t ++ [c]) (.done (.blankAfter hblank (ht.means hslot)))
    simpa using hdone
  · obtain ⟨front, t, rfl, ht, hreplace⟩ := h.innermost
    have hopen := hreplace (.bracket e) (t ++ '[' :: []) (.bracket (ht.means hslot) (by simp))
    simpa using hopen
  · obtain ⟨front, t, rfl, ht, hreplace⟩ := h.exchange
    have hbar := hreplace ⟨some (joined left e), .empty⟩ (t ++ '|' :: [])
      (.next (ht.means hslot) (.empty (by simp)))
    simpa using hbar
  · -- The frame around the parenthesis was left empty when it was opened.
    cases h with
    | push hs hf =>
        obtain ⟨front, gap, rfl, hgap, hreplace⟩ := hs.innermost
        cases hgap with
        | empty hgap =>
            have hgroup := (Means.group (hf.means hslot)).prepend_blanks hgap
            have hdone := hreplace (.done (joined left e)) _ (.done hgroup)
            simpa using hdone

/-! ## One step -/

/-- A quote opens a literal. -/
theorem Opened.start {quote : Char} (hquote : isQuote quote = true) : Opened quote [quote] :=
  ⟨hquote, [], rfl, fun _ ht => ht⟩

/-- A character that is neither the quote nor a backslash leaves a literal open. -/
theorem Opened.plain {quote : Char} (h : Opened quote s) (hne : c ≠ quote) (hslash : c ≠ '\\') :
    Opened quote (s ++ [c]) := by
  obtain ⟨hquote, body, rfl, hbody⟩ := h
  refine ⟨hquote, body ++ [c], rfl, ?_⟩
  intro t ht
  simpa using hbody _ (.plain hne hslash ht)

/-- A backslash with the character after it leaves a literal open. -/
theorem Opened.escaped {quote : Char} (h : Opened quote s) (c : Char) :
    Opened quote (s ++ ['\\', c]) := by
  obtain ⟨hquote, body, rfl, hbody⟩ := h
  refine ⟨hquote, body ++ ['\\', c], rfl, ?_⟩
  intro t ht
  simpa using hbody _ (.escaped c ht)

/-- The quote that opened a literal closes it. -/
theorem Opened.close {quote : Char} (h : Opened quote s) :
    Means .operand (s ++ [quote]) (.literal (String.ofList (s ++ [quote]))) := by
  obtain ⟨hquote, body, rfl, hbody⟩ := h
  exact .literal hquote (hbody _ .close)

theorem isBlank_append (hgap : ∀ c ∈ gap, isBlank c = true) (hc : isBlank c = true) :
    ∀ x ∈ gap ++ [c], isBlank x = true := by
  simpa [or_imp, forall_and, hc] using hgap

/-- Before an operand there may be blanks; a parenthesis opens a frame, and everything else goes
into the slot. -/
theorem step_empty (hgap : ∀ c ∈ gap, isBlank c = true)
    (hstep : step (⟨left, .empty⟩ :: outer) c = some frames) :
    (∃ slot, frames = ⟨left, slot⟩ :: outer ∧ SlotText slot (gap ++ [c])) ∨
      (c = '(' ∧ frames = .start :: ⟨left, .empty⟩ :: outer) := by
  simp only [step] at hstep
  split at hstep
  · next hblank =>
      exact .inl ⟨_, (Option.some.inj hstep).symm, .empty (isBlank_append hgap hblank)⟩
  split at hstep
  · next hc =>
      exact .inl ⟨_, (Option.some.inj hstep).symm, .name hgap (by simp) (by simpa using hc)⟩
  split at hstep
  · next hquote => exact .inl ⟨_, (Option.some.inj hstep).symm, .literal hgap (.start hquote)⟩
  split at hstep
  · next hc => exact .inr ⟨hc, (Option.some.inj hstep).symm⟩
  · cases hstep

/-- A character after a part of a name goes on with it or comes after it. -/
theorem step_name {n : List Char} (hgap : ∀ c ∈ gap, isBlank c = true)
    (hparts : ∀ c ∈ n, isNamePart c = true)
    (hstep : step (⟨left, .name n⟩ :: outer) c = some frames) :
    (∃ slot, frames = ⟨left, slot⟩ :: outer ∧ SlotText slot (gap ++ n ++ [c])) ∨
      stepAfter left (.name (String.ofList n)) outer c = some frames := by
  simp only [step] at hstep
  split at hstep
  · next hc =>
      have hall : ∀ x ∈ n ++ [c], isNamePart x = true := by
        simpa [or_imp, forall_and, hc] using hparts
      refine .inl ⟨_, (Option.some.inj hstep).symm, ?_⟩
      simpa using SlotText.name hgap (by simp) hall
  · exact .inr hstep

/-- A character in a literal leaves it open, escaped or closed. -/
theorem step_literal {quote : Char} (hgap : ∀ c ∈ gap, isBlank c = true) (h : Opened quote s)
    (hstep : step (⟨left, .literal quote s false⟩ :: outer) c = some frames) :
    ∃ slot, frames = ⟨left, slot⟩ :: outer ∧ SlotText slot (gap ++ s ++ [c]) := by
  simp only [step] at hstep
  split at hstep
  · next hc =>
      subst hc
      refine ⟨_, (Option.some.inj hstep).symm, ?_⟩
      simpa using SlotText.done (h.close.prepend_blanks hgap)
  · next hne =>
      refine ⟨_, (Option.some.inj hstep).symm, ?_⟩
      cases hslash : c == '\\' with
      | true =>
          cases eq_of_beq hslash
          simpa using SlotText.escaped hgap h
      | false => simpa using SlotText.literal hgap (h.plain hne (by simpa using hslash))

/-- A character after an opening bracket is a blank or the closing one. -/
theorem step_bracketed (h : Means .operand s e) (hgap : ∀ c ∈ gap, isBlank c = true)
    (hstep : step (⟨left, .bracket e⟩ :: outer) c = some frames) :
    ∃ slot, frames = ⟨left, slot⟩ :: outer ∧ SlotText slot (s ++ '[' :: gap ++ [c]) := by
  simp only [step] at hstep
  split at hstep
  · next hblank =>
      refine ⟨_, (Option.some.inj hstep).symm, ?_⟩
      simpa using SlotText.bracket h (isBlank_append hgap hblank)
  split at hstep
  · next hc =>
      subst hc
      refine ⟨_, (Option.some.inj hstep).symm, ?_⟩
      simpa using SlotText.done (Means.array h hgap)
  · cases hstep

/-- A character goes into the slot, opens a parenthesis there, or comes after the operand that the
slot holds. -/
theorem SlotText.step (h : SlotText slot s)
    (hstep : step (⟨left, slot⟩ :: outer) c = some frames) :
    (∃ slot', frames = ⟨left, slot'⟩ :: outer ∧ SlotText slot' (s ++ [c])) ∨
      (slot = .empty ∧ c = '(' ∧ frames = .start :: ⟨left, .empty⟩ :: outer) ∨
      ∃ e, slot.value? = some e ∧ stepAfter left e outer c = some frames := by
  cases h with
  | empty hgap =>
      rcases step_empty hgap hstep with hslot | ⟨hc, hframes⟩
      · exact .inl hslot
      · exact .inr (.inl ⟨rfl, hc, hframes⟩)
  | name hgap _ hparts =>
      rcases step_name hgap hparts hstep with hslot | hafter
      · exact .inl hslot
      · exact .inr (.inr ⟨_, rfl, hafter⟩)
  | literal hgap hopened => exact .inl (step_literal hgap hopened hstep)
  | escaped hgap hopened =>
      -- After a backslash every character is taken along.
      refine .inl ⟨_, (Option.some.inj hstep).symm, ?_⟩
      simpa using SlotText.literal hgap (hopened.escaped c)
  | bracket hmeans hgap => exact .inl (step_bracketed hmeans hgap hstep)
  | done _ => exact .inr (.inr ⟨_, rfl, hstep⟩)

/-- Every step reads a character into the frames. -/
theorem StackText.step (h : StackText (⟨left, slot⟩ :: outer) s)
    (hstep : step (⟨left, slot⟩ :: outer) c = some frames) : StackText frames (s ++ [c]) := by
  obtain ⟨front, t, rfl, ht, hreplace⟩ := h.innermost
  rcases ht.step hstep with ⟨slot', rfl, hslot'⟩ | ⟨rfl, rfl, rfl⟩ | ⟨e, hvalue, hafter⟩
  · simpa using hreplace slot' (t ++ [c]) hslot'
  · have hframe : FrameText .start [] := .first (.empty (List.forall_mem_nil _))
    simpa using StackText.push h hframe
  · exact h.after hvalue hafter

/-! ## All steps -/

/-- There is always a frame to read into. -/
theorem StackText.ne_nil (h : StackText frames s) : frames ≠ [] := by
  cases h <;> simp

/-- What stands before the frames is the text that was read, after any number of characters. -/
theorem StackText.run {frames' : List Frame} (h : StackText frames s)
    (hrun : run frames t = some frames') : StackText frames' (s ++ t) := by
  induction t generalizing frames s with
  | nil =>
      cases hrun
      simpa using h
  | cons c t ih =>
      obtain ⟨between, hstep, hrest⟩ := Option.bind_eq_some_iff.1 hrun
      cases frames with
      | nil => exact absurd rfl h.ne_nil
      | cons f frames =>
          have hnext := ih (h.step hstep) hrest
          simpa using hnext

/-- A text is read as exactly what it means. -/
theorem means_iff : Means .whole s e ↔ read s = some e := by
  constructor
  · intro h
    obtain ⟨f, hf, hrun⟩ := h.filled []
    simp [read, hrun, hf]
  · intro h
    unfold read at h
    split at h
    · next f hrun =>
        obtain ⟨x, hslot, rfl⟩ := Option.map_eq_some_iff.1 h
        have hstack := (StackText.bottom (.first (.empty (List.forall_mem_nil _)))).run hrun
        cases hstack with
        | bottom hframe => exact hframe.means hslot
    · cases h

/-- No text means two types. -/
theorem Means.unique {e' : TypeExpr} (h : Means .whole s e) (h' : Means .whole s e') : e = e' := by
  have hread := means_iff.1 h
  rw [means_iff.1 h'] at hread
  exact (Option.some.inj hread).symm

end

end TypedSql.TypeText
