import TypedSql.Proofs.Declaration.Reading
import TypedSql.Proofs.Text.Ascii
import TypedSql.Proofs.Text.Delimited

namespace TypedSql

open Text

/-! # What the text of a declaration tells

Each part of a declaration shows where it ends: a name at the character after it, a type at a mark
that it does not contain, a list of lines at a line that is none of its kind. So two declarations
have the same text only if they are the same in everything, down to the order of their parts.
-/

/-! ## Declarations whose text can be told apart -/

/-- A character of a name: a letter, a digit, an underscore or a dollar sign. -/
def isNameChar (c : Char) : Bool := isAlphanumeric c || c == '_' || c == '$'

/-- A word of such characters. -/
def IsWord (s : String) : Prop := ∀ c ∈ s.toList, isNameChar c = true

instance (s : String) : Decidable (IsWord s) :=
  List.decidableBAll (fun c => isNameChar c = true) s.toList

/-- A member that is named by a word and whose type has none of the marks in it. -/
structure Member.IsPlain (marks : List Char) (m : Member) : Prop where
  name : IsWord m.name
  typeName : ∀ c ∈ marks, c ∉ m.typeName.toList

/-- The types of an interface stay on their lines. -/
structure Interface.IsPlain (i : Interface) : Prop where
  name : IsWord i.name
  fields : ∀ m ∈ i.fields, m.IsPlain ['\n']

/-- The types of parameters have neither a comma nor a closing parenthesis in them, and the type
that is returned stays on its line. -/
structure Signature.IsPlain (s : Signature) : Prop where
  name : IsWord s.name
  params : ∀ m ∈ s.params, m.IsPlain [',', ')']
  returns : '\n' ∉ s.returns.toList

/-- Everything in a declaration is plain, and its module has no quote in its name. -/
structure Declaration.IsPlain (d : Declaration) : Prop where
  module : '\x22' ∉ d.module.toList
  interfaces : ∀ i ∈ d.interfaces, i.IsPlain
  functions : ∀ s ∈ d.functions, s.IsPlain

instance (marks : List Char) (m : Member) : Decidable (m.IsPlain marks) :=
  have := List.decidableBAll (fun c => c ∉ m.typeName.toList) marks
  decidable_of_iff (IsWord m.name ∧ ∀ c ∈ marks, c ∉ m.typeName.toList)
    ⟨fun h => ⟨h.1, h.2⟩, fun h => ⟨h.name, h.typeName⟩⟩

instance (i : Interface) : Decidable i.IsPlain :=
  decidable_of_iff (IsWord i.name ∧ ∀ m ∈ i.fields, m.IsPlain ['\n'])
    ⟨fun h => ⟨h.1, h.2⟩, fun h => ⟨h.name, h.fields⟩⟩

instance (s : Signature) : Decidable s.IsPlain :=
  decidable_of_iff (IsWord s.name ∧ (∀ m ∈ s.params, m.IsPlain [',', ')']) ∧
      '\n' ∉ s.returns.toList)
    ⟨fun h => ⟨h.1, h.2.1, h.2.2⟩, fun h => ⟨h.name, h.params, h.returns⟩⟩

instance (d : Declaration) : Decidable d.IsPlain :=
  decidable_of_iff ('\x22' ∉ d.module.toList ∧ (∀ i ∈ d.interfaces, i.IsPlain) ∧
      ∀ s ∈ d.functions, s.IsPlain)
    ⟨fun h => ⟨h.1, h.2.1, h.2.2⟩, fun h => ⟨h.module, h.interfaces, h.functions⟩⟩

/-- A word holds no other characters than those of names. -/
theorem IsWord.not_mem {s : String} (h : IsWord s) {c : Char} (hc : isNameChar c = false) :
    c ∉ s.toList := by
  intro hmem
  rw [h c hmem] at hc
  cases hc

/-! ## Members -/

namespace Member

theorem toList_text (m : Member) :
    m.text.toList = m.name.toList ++ ':' :: ' ' :: m.typeName.toList := by
  have hcolon : ": ".toList = [':', ' '] := rfl
  simp only [text, String.toList_append, hcolon, List.append_assoc, List.cons_append,
    List.nil_append]

/-- A member ends where one of the marks comes after its type. -/
theorem delimited_text (marks : List Char) :
    Delimited (IsPlain marks) (fun s => ∃ c ∈ s.head?, c ∈ marks) fun m => m.text.toList := by
  intro m m' s t hm hm' hs ht h
  have htype : ∀ {m : Member}, m.IsPlain marks → ∀ c ∈ m.typeName.toList, ¬ c ∈ marks :=
    fun hm c hc hmark => hm.typeName c hmark hc
  have hcolon : isNameChar ':' = false := by decide
  dsimp only at h
  rw [toList_text, toList_text, List.append_assoc, List.append_assoc] at h
  -- The type may have colons in it, but the first colon comes after the name.
  obtain ⟨hname, h⟩ := eq_of_char (hm.name.not_mem hcolon) (hm'.name.not_mem hcolon) h
  obtain ⟨htypes, hrest⟩ := eq_of_marked (htype hm) (htype hm') hs ht (List.cons.inj h).2
  obtain ⟨name, typeName⟩ := m
  obtain ⟨name', typeName'⟩ := m'
  obtain rfl : name = name' := String.toList_injective hname
  obtain rfl : typeName = typeName' := String.toList_injective htypes
  exact ⟨rfl, hrest⟩

/-- A member does not start with a closing parenthesis. -/
theorem text_ne_parenthesis {marks : List Char} {m : Member} (hm : m.IsPlain marks)
    (r s : List Char) : m.text.toList ++ r ≠ ')' :: s := by
  rw [toList_text]
  cases hname : m.name.toList with
  | nil => simp
  | cons c cs =>
      have hc : ')' ∉ m.name.toList := hm.name.not_mem (by decide)
      rw [hname] at hc
      intro h
      exact hc (List.mem_cons.2 (.inl (List.cons.inj h).1.symm))

end Member

/-! ## Interfaces -/

namespace Interface

/-- The line of a field with its end. -/
def fullLineOf (m : Member) : List Char := lineOf m ++ ['\n']

/-- What ends an interface after its fields. Without fields there is an empty line before it. -/
def closing (fields : List Member) : List Char :=
  (if fields.isEmpty then ['\n'] else []) ++ "  \x7d\n".toList

/-- An interface is written with a line for each of its fields. -/
theorem toList_text_lines (i : Interface) :
    i.text.toList = header i.name ++ (i.fields.flatMap fullLineOf ++ closing i.fields) := by
  cases hfields : i.fields with
  | nil =>
      unfold text header
      rw [hfields]
      simp [closing, String.toList_append]
  | cons m fields =>
      rw [toList_text i (by simp [hfields]), hfields]
      rfl

/-- The line of a field tells where it ends. -/
theorem delimited_fullLineOf : Delimited (Member.IsPlain ['\n']) (fun _ => True) fullLineOf := by
  intro m m' s t hm hm' _ _ h
  have hline : ∀ (m : Member) (s : List Char),
      fullLineOf m ++ s = "    ".toList ++ (m.text.toList ++ '\n' :: s) := by
    intro m s
    simp [fullLineOf, lineOf, Member.toList_text]
  rw [hline, hline] at h
  have hmark : ∀ s, ∃ c ∈ ('\n' :: s : List Char).head?, c ∈ ['\n'] :=
    fun s => ⟨'\n', rfl, List.mem_singleton_self _⟩
  obtain ⟨rfl, hrest⟩ := Member.delimited_text ['\n'] m m' _ _ hm hm' (hmark s) (hmark t)
    (List.append_cancel_left h)
  exact ⟨rfl, (List.cons.inj hrest).2⟩

/-- The end of an interface is not the line of a field. -/
theorem stops_closing (fields : List Member) (s : List Char) :
    Stops (Member.IsPlain ['\n']) fullLineOf (closing fields ++ s) := by
  intro m r _ h
  unfold fullLineOf lineOf closing at h
  split at h <;> simp at h

theorem delimited_text : Delimited IsPlain (fun _ => True) fun i => i.text.toList := by
  intro i i' s t hi hi' _ _ h
  have hheader : ∀ (name : String) (rest : List Char), header name ++ rest =
      "  export interface ".toList ++ (name.toList ++ ' ' :: '\x7b' :: '\n' :: rest) := by
    intro name rest
    simp [header, String.toList_append]
  have hspace : isNameChar ' ' = false := by decide
  have hlines := delimited_fullLineOf.list fun _ _ _ _ => trivial
  dsimp only at h
  simp only [toList_text_lines, List.append_assoc] at h
  rw [hheader, hheader] at h
  obtain ⟨hname, h⟩ := eq_of_char (hi.name.not_mem hspace) (hi'.name.not_mem hspace)
    (List.append_cancel_left h)
  obtain ⟨hfields, hrest⟩ := hlines _ _ _ _ hi.fields hi'.fields
    ⟨trivial, stops_closing _ s⟩ ⟨trivial, stops_closing _ t⟩
    (List.cons.inj (List.cons.inj h).2).2
  obtain ⟨name, fields⟩ := i
  obtain ⟨name', fields'⟩ := i'
  obtain rfl : fields = fields' := hfields
  obtain rfl : name = name' := String.toList_injective hname
  exact ⟨rfl, List.append_cancel_left hrest⟩

end Interface

/-! ## Functions -/

namespace Signature

/-- A parameter with the comma before it. -/
def laterParam (m : Member) : List Char := ',' :: ' ' :: m.text.toList

/-- The parameters of a function, as they are written. -/
def paramsText : List Member → List Char
  | [] => []
  | m :: params => m.text.toList ++ params.flatMap laterParam

/-- Parameters are written with commas between them. -/
theorem toList_intercalate_params (params : List Member) :
    (", ".intercalate (params.map Member.text)).toList = paramsText params := by
  have hcomma : ", ".toList = [',', ' '] := rfl
  rw [String.toList_intercalate, hcomma]
  cases params with
  | nil => rfl
  | cons m params =>
      rw [paramsText]
      induction params generalizing m with
      | nil => simp
      | cons m' params ih =>
          have hlater := ih m'
          rw [List.map_cons, List.map_cons] at hlater
          rw [List.map_cons, List.map_cons, List.map_cons, List.map_cons,
            List.intercalate_cons_cons, hlater, List.flatMap_cons]
          simp [laterParam]

/-- A parameter tells where it ends. -/
theorem delimited_laterParam : Delimited (Member.IsPlain [',', ')'])
    (fun s => ∃ c ∈ s.head?, c ∈ [',', ')']) laterParam := by
  intro m m' s t hm hm' hs ht h
  exact Member.delimited_text [',', ')'] m m' s t hm hm' hs ht
    (List.cons.inj (List.cons.inj h).2).2

/-- Parameters end at the closing parenthesis. -/
theorem eq_of_paramsText {params params' : List Member} {s t : List Char}
    (h : ∀ m ∈ params, m.IsPlain [',', ')']) (h' : ∀ m ∈ params', m.IsPlain [',', ')'])
    (heq : paramsText params ++ ')' :: s = paramsText params' ++ ')' :: t) :
    params = params' ∧ s = t := by
  have hafter : ∀ (m : Member) (s : List Char), m.IsPlain [',', ')'] →
      (∃ c ∈ s.head?, c ∈ [',', ')']) → ∃ c ∈ (laterParam m ++ s).head?, c ∈ [',', ')'] :=
    fun _ _ _ _ => ⟨',', rfl, by decide⟩
  have hend : ∀ s, (∃ c ∈ (')' :: s).head?, c ∈ [',', ')']) ∧
      Stops (Member.IsPlain [',', ')']) laterParam (')' :: s) := by
    intro s
    refine ⟨⟨')', rfl, by decide⟩, fun m r _ hm => ?_⟩
    exact absurd (List.cons.inj hm).1 (by decide)
  cases params with
  | nil =>
      cases params' with
      | nil => exact ⟨rfl, (List.cons.inj heq).2⟩
      | cons m' params' =>
          rw [paramsText, paramsText, List.append_assoc] at heq
          exact absurd heq.symm (Member.text_ne_parenthesis (h' m' List.mem_cons_self) _ _)
  | cons m params =>
      cases params' with
      | nil =>
          rw [paramsText, paramsText, List.append_assoc] at heq
          exact absurd heq (Member.text_ne_parenthesis (h m List.mem_cons_self) _ _)
      | cons m' params' =>
          -- With a comma in front the first parameter is written as the others are.
          have hall : (m :: params).flatMap laterParam ++ ')' :: s =
              (m' :: params').flatMap laterParam ++ ')' :: t :=
            congrArg (fun text => ',' :: ' ' :: text) heq
          obtain ⟨hparams, hrest⟩ :=
            delimited_laterParam.list hafter _ _ _ _ h h' (hend s) (hend t) hall
          exact ⟨hparams, (List.cons.inj hrest).2⟩

theorem toList_text (f : Signature) : f.text.toList = "  export function ".toList ++
    (f.name.toList ++ '(' :: (paramsText f.params ++ ')' :: ':' :: ' ' :: f.returns.toList)) := by
  have hopen : "(".toList = ['('] := rfl
  have hclose : "): ".toList = [')', ':', ' '] := rfl
  unfold text
  rw [String.toList_append, String.toList_append, String.toList_append, String.toList_append,
    String.toList_append, toList_intercalate_params, hopen, hclose, List.append_assoc,
    List.append_assoc, List.append_assoc, List.append_assoc]
  rfl

/-- The line of a function with its end. -/
theorem delimited_line : Delimited IsPlain (fun _ => True) fun f => f.text.toList ++ ['\n'] := by
  intro f f' s t hf hf' _ _ h
  have hopen : isNameChar '(' = false := by decide
  dsimp only at h
  rw [toList_text, toList_text] at h
  simp only [List.append_assoc, List.cons_append, List.nil_append] at h
  obtain ⟨hname, h⟩ := eq_of_char (hf.name.not_mem hopen) (hf'.name.not_mem hopen)
    (List.append_cancel_left h)
  obtain ⟨hparams, h⟩ := eq_of_paramsText hf.params hf'.params h
  obtain ⟨hreturns, hrest⟩ := eq_of_char hf.returns hf'.returns
    (List.cons.inj (List.cons.inj h).2).2
  obtain ⟨name, params, returns⟩ := f
  obtain ⟨name', params', returns'⟩ := f'
  obtain rfl : name = name' := String.toList_injective hname
  obtain rfl : params = params' := hparams
  obtain rfl : returns = returns' := String.toList_injective hreturns
  exact ⟨rfl, hrest⟩

end Signature

/-! ## Declarations -/

namespace Declaration

section

variable {α : Type} {valid : α → Prop} {line : α → String}

/-- A line with its end. -/
def ended (line : α → String) (x : α) : List Char := (line x).toList ++ ['\n']

/-- A block of lines, as it is written. -/
def blockText (line : α → String) (xs : List α) : List Char :=
  if xs.isEmpty then [] else '\n' :: '\n' :: xs.flatMap (ended line)

/-- A block is written line by line. -/
theorem toList_block (line : α → String) (xs : List α) :
    (block (xs.map line)).toList = blockText line xs := by
  have hempty : "".toList = [] := rfl
  have hopen : "\n\n".toList = ['\n', '\n'] := rfl
  have hend : "\n".toList = ['\n'] := rfl
  unfold block blockText
  rw [List.isEmpty_map]
  cases xs with
  | nil => exact hempty
  | cons x xs =>
      have hne : ((x :: xs).map line).map String.toList ≠ [] := by simp
      have hlines := intercalate_concat hne '\n'
      rw [List.flatMap_map, List.flatMap_map] at hlines
      rw [List.isEmpty_cons, if_neg Bool.false_ne_true, if_neg Bool.false_ne_true,
        String.toList_append, String.toList_append, String.toList_intercalate, hopen, hend,
        List.append_assoc, hlines]
      rfl

/-- A block ends where something comes that is neither a line of its kind nor a block of them. -/
theorem delimited_blockText (h : Delimited valid (fun _ => True) (ended line)) :
    Delimited (fun xs => ∀ x ∈ xs, valid x)
      (fun s => Stops valid (ended line) s ∧
        Stops valid (fun x => '\n' :: '\n' :: ended line x) s) (blockText line) := by
  intro xs ys s t hxs hys hs ht heq
  have hlines := h.list fun _ _ _ _ => trivial
  cases xs with
  | nil =>
      cases ys with
      | nil => exact ⟨rfl, heq⟩
      | cons y ys =>
          refine absurd heq.symm ?_
          simpa [blockText] using hs.2 y (ys.flatMap (ended line) ++ t) (hys y List.mem_cons_self)
  | cons x xs =>
      cases ys with
      | nil =>
          refine absurd heq ?_
          simpa [blockText] using ht.2 x (xs.flatMap (ended line) ++ s) (hxs x List.mem_cons_self)
      | cons y ys =>
          exact hlines _ _ _ _ hxs hys ⟨trivial, hs.1⟩ ⟨trivial, ht.1⟩
            (List.cons.inj (List.cons.inj heq).2).2

end

theorem toList_text (d : Declaration) : d.text.toList = "declare module \"".toList ++
    (d.module.toList ++ '\x22' :: ' ' :: '\x7b' :: (blockText Interface.text d.interfaces ++
      (blockText Signature.text d.functions ++ ['\x7d']))) := by
  have hopen : "\" \x7b".toList = ['\x22', ' ', '\x7b'] := rfl
  have hclose : "\x7d".toList = ['\x7d'] := rfl
  unfold text
  rw [String.toList_append, String.toList_append, String.toList_append, String.toList_append,
    String.toList_append, toList_block, toList_block, hopen, hclose, List.append_assoc,
    List.append_assoc, List.append_assoc, List.append_assoc]
  rfl

/-- An interface starts with a word that no function starts with. -/
theorem toList_header_front (name : String) :
    ∃ rest, Interface.header name = "  export i".toList ++ rest := by
  have hfront : "  export interface ".toList = "  export i".toList ++ "nterface ".toList := rfl
  rw [Interface.header, String.toList_append, String.toList_append, hfront, List.append_assoc,
    List.append_assoc]
  exact ⟨_, rfl⟩

/-- The word that comes first tells interfaces from functions. -/
theorem exists_ended_interface (i : Interface) :
    ∃ rest, ended Interface.text i = "  export i".toList ++ rest := by
  obtain ⟨rest, hrest⟩ := toList_header_front i.name
  rw [ended, Interface.toList_text_lines, hrest, List.append_assoc, List.append_assoc]
  exact ⟨_, rfl⟩

/-- A function starts with a word that no interface starts with. -/
theorem exists_ended_function (f : Signature) :
    ∃ rest, ended Signature.text f = "  export f".toList ++ rest := by
  have hfront : "  export function ".toList = "  export f".toList ++ "unction ".toList := rfl
  rw [ended, Signature.toList_text, hfront, List.append_assoc, List.append_assoc]
  exact ⟨_, rfl⟩

/-- The interfaces of a declaration tell where they end. -/
theorem delimited_interfaces : Delimited (fun is => ∀ i ∈ is, i.IsPlain)
    (fun s => Stops Interface.IsPlain (ended Interface.text) s ∧
      Stops Interface.IsPlain (fun i => '\n' :: '\n' :: ended Interface.text i) s)
    (blockText Interface.text) := by
  refine delimited_blockText fun i i' s t hi hi' _ _ h => ?_
  rw [ended, ended, List.append_assoc, List.append_assoc] at h
  obtain ⟨rfl, hrest⟩ := Interface.delimited_text i i' _ _ hi hi' trivial trivial h
  exact ⟨rfl, List.append_cancel_left hrest⟩

/-- After its functions a declaration ends. -/
theorem stops_functions : Stops Signature.IsPlain (ended Signature.text) ['\x7d'] ∧
    Stops Signature.IsPlain (fun f => '\n' :: '\n' :: ended Signature.text f) ['\x7d'] := by
  refine ⟨fun f r _ h => ?_, fun f r _ h => ?_⟩
  · obtain ⟨rest, hrest⟩ := exists_ended_function f
    rw [hrest] at h
    simp at h
  · simp at h

/-- After its interfaces there is a block of functions, or the end. -/
theorem stops_interfaces (fs : List Signature) :
    Stops Interface.IsPlain (ended Interface.text) (blockText Signature.text fs ++ ['\x7d']) ∧
      Stops Interface.IsPlain (fun i => '\n' :: '\n' :: ended Interface.text i)
        (blockText Signature.text fs ++ ['\x7d']) := by
  refine ⟨fun i r _ h => ?_, fun i r _ h => ?_⟩
  -- What comes is the end or a block of functions, whose lines have another second word.
  all_goals
    obtain ⟨rest, hrest⟩ := exists_ended_interface i
    cases fs with
    | nil => simp [blockText, hrest] at h
    | cons f fs =>
        obtain ⟨rest', hrest'⟩ := exists_ended_function f
        simp [blockText, hrest, hrest'] at h

/-- The text of a plain declaration tells all of it: its module, its interfaces with their fields
and its functions with their parameters, everything in its order. -/
theorem text_eq_iff {d d' : Declaration} (h : d.IsPlain) (h' : d'.IsPlain) :
    d.text = d'.text ↔ d = d' := by
  refine ⟨fun htext => ?_, fun heq => heq ▸ rfl⟩
  have hchars := congrArg String.toList htext
  rw [toList_text, toList_text] at hchars
  -- Each part is taken off both texts at its end, and what is left starts with the next one.
  obtain ⟨hmodule, hrest⟩ := eq_of_char h.module h'.module (List.append_cancel_left hchars)
  obtain ⟨hinterfaces, hrest⟩ := delimited_interfaces _ _ _ _ h.interfaces h'.interfaces
    (stops_interfaces _) (stops_interfaces _) (List.cons.inj (List.cons.inj hrest).2).2
  obtain ⟨hfunctions, -⟩ := delimited_blockText Signature.delimited_line _ _ _ _ h.functions
    h'.functions stops_functions stops_functions hrest
  obtain ⟨module, interfaces, functions⟩ := d
  obtain ⟨module', interfaces', functions'⟩ := d'
  obtain rfl : module = module' := String.toList_injective hmodule
  obtain rfl : interfaces = interfaces' := hinterfaces
  obtain rfl : functions = functions' := hfunctions
  rfl

/-- Types that look like the end of a field list and like another parameter, an interface without
fields, and a declaration that differs in the order of its parameters only. -/
theorem text_ne_reordered :
    let odd : Interface := ⟨"Row", [⟨"id", "\x7b a: b \x7d"⟩, ⟨"$2", "  \x7d"⟩]⟩
    let d : Declaration := ⟨"db/q.sql", [odd, ⟨"Empty", []⟩],
      [⟨"query", [⟨"a", "T: U"⟩, ⟨"b", "(T"⟩], "Promise<Row>\x7d"⟩]⟩
    let d' : Declaration := ⟨"db/q.sql", [odd, ⟨"Empty", []⟩],
      [⟨"query", [⟨"b", "(T"⟩, ⟨"a", "T: U"⟩], "Promise<Row>\x7d"⟩]⟩
    d.IsPlain ∧ d'.IsPlain ∧ d.text ≠ d'.text := by
  intro odd d d'
  have hd : d.IsPlain := by decide
  have hd' : d'.IsPlain := by decide
  exact ⟨hd, hd', fun htext => absurd ((text_eq_iff hd hd').1 htext) (by decide)⟩

end Declaration

end TypedSql
