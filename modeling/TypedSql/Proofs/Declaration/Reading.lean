import TypedSql.Declaration
import TypedSql.Proofs.Declaration.PropertyName
import TypedSql.Proofs.Text.Delimited

namespace TypedSql

open PropertyName

/-! # Interfaces read back

A printed interface is read line by line: every line between its first and its last is a field with
a legal name and a type. A text is read in one way at most, and the text of an interface is read as
its fields exactly when their names are legal.
-/

/-- A text that stays on one line. -/
def OnOneLine (s : String) : Prop := ∀ c ∈ s.toList, c ∉ lineEnds

/-- A type is written on one line, and is not nothing. -/
structure IsTypeText (s : String) : Prop where
  ne_empty : s ≠ ""
  onOneLine : OnOneLine s

namespace Interface

/-- A line is read as a field: an indented legal name, a colon with a blank after it, and a type. -/
structure FieldLine (w : WideLetters) (line : List Char) (m : Member) : Prop where
  text : line = "    ".toList ++ (m.name.toList ++ ':' :: ' ' :: m.typeName.toList)
  name : PropertyName w m.name.toList
  typeName : IsTypeText m.typeName

/-- The lines of an interface after the first are read: one for each field, and the one that closes
it. -/
inductive FieldLines (w : WideLetters) : List Char → List Member → Prop
  | close : FieldLines w "  \x7d\n".toList []
  | field {line text : List Char} {m : Member} {fields : List Member} (hline : FieldLine w line m)
      (h : FieldLines w text fields) : FieldLines w (line ++ '\n' :: text) (m :: fields)

/-- The first line of an interface. -/
def header (name : String) : List Char := ("  export interface " ++ name ++ " \x7b\n").toList

/-- The text of an interface with a name is read as fields. -/
def Reads (w : WideLetters) (name text : String) (fields : List Member) : Prop :=
  ∃ lines, text.toList = header name ++ lines ∧ FieldLines w lines fields

section

variable {w : WideLetters} {line line' text text' : List Char} {m m' : Member}
  {fields fields' : List Member}

/-! ## One reading at most -/

theorem FieldLine.newline (h : FieldLine w line m) : '\n' ∉ line := by
  have hends : '\n' ∈ lineEnds := by decide
  intro hmem
  rw [h.text, List.mem_append, List.mem_append, List.mem_cons, List.mem_cons] at hmem
  rcases hmem with hmem | hmem | hmem | hmem | hmem
  · revert hmem
    decide
  · exact h.name.inline _ hmem hends
  · revert hmem
    decide
  · revert hmem
    decide
  · exact h.typeName.onOneLine _ hmem hends

/-- The name ends by itself, so what stands before the type is known. -/
theorem FieldLine.unique (h : FieldLine w line m) (h' : FieldLine w line m') : m = m' := by
  have htext := List.append_cancel_left (h.text.symm.trans h'.text)
  have hname : m.name.toList = m'.name.toList := by
    have hfront := congrArg nameIn htext
    rwa [nameIn_append h.name, nameIn_append h'.name] at hfront
  rw [hname] at htext
  have htype := List.append_cancel_left htext
  rw [List.cons.injEq, List.cons.injEq] at htype
  obtain ⟨name, typeName⟩ := m
  obtain ⟨name', typeName'⟩ := m'
  rw [Member.mk.injEq]
  exact ⟨String.toList_injective hname, String.toList_injective htype.2.2⟩

/-- The closing line is no field. -/
theorem FieldLine.ne_close (h : FieldLine w line m) :
    line ++ '\n' :: text ≠ "  \x7d\n".toList := by
  rw [h.text]
  intro heq
  simp at heq

theorem FieldLines.unique (h : FieldLines w text fields) (h' : FieldLines w text fields') :
    fields = fields' := by
  -- The closing line is told from a field by its indentation, and one field from the next by the
  -- end of its line, so both readings take the same steps.
  induction h generalizing fields' with
  | close =>
      generalize htext : "  \x7d\n".toList = text at h'
      cases h' with
      | close => rfl
      | field hline _ => exact absurd htext.symm hline.ne_close
  | @field line text m fields hline _ ih =>
      generalize htext : line ++ '\n' :: text = whole at h'
      cases h' with
      | close => exact absurd htext hline.ne_close
      | field hline' hrest =>
          obtain ⟨rfl, rfl⟩ := Text.eq_of_char hline.newline hline'.newline htext
          rw [hline.unique hline', ih hrest]

theorem Reads.unique {name text : String} (h : Reads w name text fields)
    (h' : Reads w name text fields') : fields = fields' := by
  obtain ⟨lines, htext, hlines⟩ := h
  obtain ⟨lines', htext', hlines'⟩ := h'
  rw [htext] at htext'
  rw [← List.append_cancel_left htext'] at hlines'
  exact hlines.unique hlines'

/-! ## The reading of a printed interface -/

theorem FieldLines.names (h : FieldLines w text fields) :
    ∀ m ∈ fields, PropertyName w m.name.toList := by
  induction h with
  | close => exact nofun
  | field hline _ ih =>
      intro m hm
      rcases List.mem_cons.1 hm with rfl | hm
      · exact hline.name
      · exact ih m hm

/-- The line that is printed for a field. -/
def lineOf (m : Member) : List Char :=
  "    ".toList ++ (m.name.toList ++ ':' :: ' ' :: m.typeName.toList)

/-- The lines that are printed after the first. -/
def linesOf (fields : List Member) : List Char :=
  fields.flatMap (fun m => lineOf m ++ ['\n']) ++ "  \x7d\n".toList

theorem linesOf_cons (m : Member) (fields : List Member) :
    linesOf (m :: fields) = lineOf m ++ '\n' :: linesOf fields := by
  simp [linesOf]

theorem fieldLines_linesOf (htypes : ∀ m ∈ fields, IsTypeText m.typeName)
    (hnames : ∀ m ∈ fields, PropertyName w m.name.toList) :
    FieldLines w (linesOf fields) fields := by
  induction fields with
  | nil => exact .close
  | cons m fields ih =>
      have hline : FieldLine w (lineOf m) m :=
        ⟨rfl, hnames m List.mem_cons_self, htypes m List.mem_cons_self⟩
      rw [linesOf_cons]
      exact .field hline (ih (fun x hx => htypes x (List.mem_cons_of_mem m hx))
        fun x hx => hnames x (List.mem_cons_of_mem m hx))

/-- A line that is printed for a field is read as some field, or the interface is not read. -/
theorem FieldLines.first {m : Member} (hnewline : '\n' ∉ lineOf m)
    (h : FieldLines w (lineOf m ++ '\n' :: text) fields) : ∃ m', FieldLine w (lineOf m) m' := by
  generalize htext : lineOf m ++ '\n' :: text = whole at h
  cases h with
  | close => simp [lineOf] at htext
  | @field line _ m' _ hline _ =>
      obtain ⟨hlines, -⟩ := Text.eq_of_char hnewline hline.newline htext
      rw [hlines]
      exact ⟨m', hline⟩

/-- Between the first line and the last there is a line for each field. -/
theorem intercalate_lines (hne : fields ≠ []) :
    ['\n'].intercalate (fields.map lineOf) ++ "\n  \x7d\n".toList = linesOf fields := by
  have hlines : fields.map lineOf ≠ [] := by simpa using hne
  have hends := Text.intercalate_concat hlines '\n'
  have hclose : "\n  \x7d\n".toList = ['\n'] ++ "  \x7d\n".toList := rfl
  rw [hclose, ← List.append_assoc, hends, List.flatMap_map]
  rfl

theorem toList_text (i : Interface) (hne : i.fields ≠ []) :
    i.text.toList = header i.name ++ linesOf i.fields := by
  have hlines : (i.fields.map fun field => "    " ++ field.text).map String.toList =
      i.fields.map lineOf := by
    rw [List.map_map]
    refine List.map_congr_left fun m _ => ?_
    simp [lineOf, Member.text, String.toList_append]
  have hnewline : "\n".toList = ['\n'] := rfl
  rw [← intercalate_lines hne]
  unfold Interface.text header
  simp only [String.toList_append, String.toList_intercalate, hlines, hnewline, List.append_assoc]

/-- A printed interface is read as its fields, and as nothing else, exactly when their names are
legal. -/
theorem reads_text_iff (i : Interface) (hne : i.fields ≠ [])
    (htypes : ∀ m ∈ i.fields, IsTypeText m.typeName) :
    (∀ fields, Reads w i.name i.text fields ↔ fields = i.fields) ↔
      ∀ m ∈ i.fields, PropertyName w m.name.toList := by
  constructor
  · intro hreads
    obtain ⟨lines, _, hlines⟩ := (hreads i.fields).2 rfl
    exact hlines.names
  · intro hnames fields
    have hown : Reads w i.name i.text i.fields :=
      ⟨_, toList_text i hne, fieldLines_linesOf htypes hnames⟩
    constructor
    · intro hreads
      exact hreads.unique hown
    · rintro rfl
      exact hown

end

end Interface

end TypedSql
