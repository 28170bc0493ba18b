import TypedSql.Proofs.Toml.Values
import TypedSql.Toml.Document

namespace TypedSql.Toml

open Reader Reading

/-! # Documents of entries are read again

A document that is written has pairs of a name and a content on lines of their own, then a header
with more pairs below it. Reading it gives an entry for each pair, in their order. Where the entries
stood is left open.
-/

/-- What an entry may hold. -/
inductive Content
  | text (s : String)
  | list (texts : List String)

namespace Content

/-- A content as it is written. -/
def write : Content → List Char
  | text s => writeText s
  | list texts => writeTexts texts

/-- An item has a content. -/
def Of (item : Item) : Content → Prop
  | text s => item.IsText s
  | list texts => item.IsTexts texts

/-- A content that is the last of its line. -/
theorem run_value (content : Content) (depth : Nat) (rest : List Char) :
    ∃ item, (value (depth + 1)).run (content.write ++ '\n' :: rest) = .ok (item, '\n' :: rest) ∧
      content.Of item := by
  cases content with
  | text s => exact run_value_text _ s (endsText_cons (c := '\n') (by simp) _)
  | list texts => exact run_value_texts depth texts ('\n' :: rest)

/-- What a value is written as does not start with a blank. -/
theorem head_write (content : Content) (rest : List Char) :
    ∀ c ∈ (content.write ++ rest).head?, isBlank c = false := by
  cases content with
  | text s =>
      obtain ⟨c, cs, hwrite, hc⟩ := exists_writeText s
      rw [write, hwrite]
      rcases hc with rfl | rfl <;> simp [isBlank]
  | list texts =>
      rcases texts with _ | ⟨s, _ | ⟨t, texts⟩⟩ <;> simp [write, writeTexts, isBlank]

end Content

/-- A name with what stands behind it. -/
abbrev Pair := String × Content

/-- A pair on a line of its own. -/
def Pair.write (pair : Pair) : List Char :=
  pair.1.toList ++ [' ', '=', ' '] ++ pair.2.write ++ ['\n']

/-- An entry of a table has the name and the content of a pair. -/
def Pair.Of (pair : Pair) (entry : Key × Item) : Prop :=
  entry.1.name = pair.1 ∧ pair.2.Of entry.2

/-- A name that is written as it is. -/
def IsBare (name : String) : Prop :=
  (name.toList.all isBareChar && !name.toList.isEmpty) = true

instance (name : String) : Decidable (IsBare name) := inferInstanceAs (Decidable (_ = true))

/-! ## Keys -/

section

variable {name : String} {c : Char} {cs rest : List Char}

/-- A bare name has bare characters only, and at least one. -/
theorem isBare_iff : IsBare name ↔ (∀ c ∈ name.toList, isBareChar c = true) ∧ name.toList ≠ [] := by
  simp [IsBare]

theorem IsBare.exists_cons (h : IsBare name) :
    ∃ c cs, name.toList = c :: cs ∧ isBareChar c = true := by
  obtain ⟨hbare, hne⟩ := isBare_iff.1 h
  cases hname : name.toList with
  | nil => exact absurd hname hne
  | cons c cs =>
      rw [hname] at hbare
      exact ⟨c, cs, rfl, hbare c List.mem_cons_self⟩

/-- A bare character is none that is not bare. -/
theorem ne_of_isBareChar {d : Char} (h : isBareChar c = true) (hd : isBareChar d = false) :
    c ≠ d := by
  rintro rfl
  rw [h] at hd
  cases hd

theorem isBlank_of_isBareChar (h : isBareChar c = true) : isBlank c = false := by
  simp [isBlank, ne_of_isBareChar h (d := ' ') rfl, ne_of_isBareChar h (d := '\t') rfl]

/-- What ends a key of one step. -/
structure EndsKey (c : Char) : Prop where
  notBare : isBareChar c = false
  notBlank : isBlank c = false
  notPoint : c ≠ '.'

/-- A bare name is read as a step of a key. -/
theorem run_keyStep (h : IsBare name) (hrest : ∀ c ∈ rest.head?, isBareChar c = false) :
    ∃ k, keyStep.run (name.toList ++ rest) = .ok (k, rest) ∧ k.name = name := by
  obtain ⟨c, cs, hname, hc⟩ := h.exists_cons
  refine ⟨⟨name, _⟩, run_bind_of_ok (run_spanned ((run_bind_of_ok (run_peek _)).trans ?_)), rfl⟩
  rw [hname]
  dsimp only [List.cons_append, List.head?_cons]
  split
  · next heq => cases heq
  · next heq => exact absurd (Option.some.inj heq) (ne_of_isBareChar hc rfl)
  · next heq => exact absurd (Option.some.inj heq) (ne_of_isBareChar hc rfl)
  · obtain ⟨hbare, hne⟩ := isBare_iff.1 h
    have htaken := run_oneOrMore hne hbare hrest
    rw [hname] at htaken
    refine (run_bind_of_ok htaken).trans ?_
    rw [← hname, String.ofList_toList]
    rfl

/-- A bare name is read as a key, with the blanks after it. -/
theorem run_key (h : IsBare name) {blank : List Char} (hblank : ∀ d ∈ blank, isBlank d = true)
    (hc : EndsKey c) (rest : List Char) :
    ∃ k, key.run (name.toList ++ (blank ++ c :: rest)) = .ok (([], k), c :: rest) ∧
      k.name = name := by
  obtain ⟨d, cs, hname, hd⟩ := h.exists_cons
  have hend : ∀ e ∈ (blank ++ c :: rest).head?, isBareChar e = false := by
    cases blank with
    | nil => simpa using hc.notBare
    | cons e blank =>
        have he : isBlank e = true := hblank e List.mem_cons_self
        simp only [isBlank, Bool.or_eq_true, beq_iff_eq] at he
        rcases he with rfl | rfl <;> simp [isBareChar]
  obtain ⟨k, hk, hkname⟩ := run_keyStep h hend
  have hfront : blanks.run (name.toList ++ (blank ++ c :: rest)) = .ok ([], _) :=
    run_blanks_nil (by simpa [hname] using isBlank_of_isBareChar hd)
  have hback : blanks.run (blank ++ c :: rest) = .ok (blank, c :: rest) :=
    run_zeroOrMore hblank (by simpa using hc.notBlank)
  have hstep : spacedStep.run (name.toList ++ (blank ++ c :: rest)) = .ok (k, c :: rest) :=
    (run_bind_of_ok hfront).trans ((run_bind_of_ok hk).trans (run_bind_of_ok hback))
  have hmore : Pieces (do let _ ← char '.'; spacedStep) (c :: rest) [] (c :: rest) :=
    .stop (.bind (declines_char (by simpa using hc.notPoint)))
  refine ⟨k, run_checked (a := (k, [])) (run_labelled ?_) rfl, hkname⟩
  exact (run_bind_of_ok hstep).trans (run_bind_of_ok (run_repeated hmore))

end

/-! ## Lines -/

section

variable {name : String} {rest : List Char} {d : Document}

/-- An entry of one step, whose value fills the rest of its line. -/
theorem run_entry {pair : Pair} (h : IsBare pair.1) (rest : List Char) :
    ∃ k item, entry.run (pair.write ++ rest) = .ok (Document.addEntry [] k item, rest) ∧
      pair.Of (k, item) := by
  obtain ⟨name, content⟩ := pair
  have hwrite : Pair.write (name, content) ++ rest =
      name.toList ++ ([' '] ++ '=' :: ' ' :: (content.write ++ '\n' :: rest)) := by
    simp [Pair.write]
  have hblank : ∀ d ∈ [' '], isBlank d = true := List.forall_mem_singleton.2 rfl
  have hsign : EndsKey '=' := ⟨rfl, rfl, by decide⟩
  obtain ⟨k, hk, hkname⟩ := run_key h hblank hsign (' ' :: (content.write ++ '\n' :: rest))
  obtain ⟨item, hitem, hof⟩ := content.run_value 78 rest
  refine ⟨k, item, ?_, hkname, hof⟩
  rw [hwrite]
  refine (run_bind_of_ok hk).trans (run_commit ?_)
  refine (run_bind_of_ok (run_expecting (run_map_of_ok (run_char _ _)))).trans ?_
  refine (run_bind_of_ok (run_blanks_space (content.head_write _))).trans ?_
  refine (run_bind_of_ok hitem).trans ?_
  exact run_bind_of_ok (run_expecting (run_lineRest rest))

/-- The header of a table, with a path of one step. -/
theorem run_header (h : IsBare name) (rest : List Char) :
    ∃ k span, header.run ('[' :: (name.toList ++ ']' :: '\n' :: rest)) =
      .ok (Document.openTable [] k span, rest) ∧ k.name = name := by
  have hend : EndsKey ']' := ⟨rfl, rfl, by decide⟩
  obtain ⟨k, hk, hkname⟩ := run_key h (List.forall_mem_nil _) hend ('\n' :: rest)
  obtain ⟨c, more, hname, hc⟩ := h.exists_cons
  refine ⟨k, ⟨'[' :: (name.toList ++ ']' :: '\n' :: rest), '\n' :: rest⟩, ?_, hkname⟩
  have hopening : header.run ('[' :: (name.toList ++ ']' :: '\n' :: rest)) =
      (headerOf ['['] [']'] "`]`" Document.openTable).run
        ('[' :: (name.toList ++ ']' :: '\n' :: rest)) := by
    refine (run_bind_of_ok (run_get _)).trans ?_
    rw [hname]
    dsimp only [List.cons_append, List.take_succ_cons, List.take_zero]
    split
    · next heq => exact absurd (List.cons.inj (List.cons.inj heq).2).1 (ne_of_isBareChar hc rfl)
    · rfl
    · next hne => exact absurd rfl (hne _ _)
  have hliteral : (literal ['[']).run ('[' :: (name.toList ++ ']' :: '\n' :: rest)) = .ok ((), _) :=
    run_literal ['['] _
  have hclosing : (literal [']']).run (']' :: '\n' :: rest) = .ok ((), '\n' :: rest) :=
    run_literal [']'] _
  rw [hopening]
  refine (run_bind_of_ok (a := (([], k), _)) (t := '\n' :: rest) (run_spanned ?_)).trans ?_
  · refine (run_bind_of_ok hliteral).trans ((run_bind_of_ok (run_commit hk)).trans ?_)
    exact run_bind_of_ok (run_expecting (run_commit hclosing))
  · exact run_bind_of_ok (run_expecting (run_commit (run_lineRest rest)))

/-- Bare names do not start with what other lines start with. -/
theorem line_run_of_isBare {cs : List Char} (h : IsBare name) :
    (line d).run (name.toList ++ cs) =
      (commit (checked entry fun run => run d)).run (name.toList ++ cs) := by
  obtain ⟨c, more, hname, hc⟩ := h.exists_cons
  refine (run_bind_of_ok (run_peek _)).trans ?_
  rw [hname]
  dsimp only [List.cons_append, List.head?_cons]
  -- What starts a comment, a header or a blank line is not bare.
  split
  · next heq => cases heq
  · next heq => exact absurd (Option.some.inj heq) (ne_of_isBareChar hc rfl)
  · next heq => exact absurd (Option.some.inj heq) (ne_of_isBareChar hc rfl)
  · next heq => exact absurd (Option.some.inj heq) (ne_of_isBareChar hc rfl)
  · next heq => exact absurd (Option.some.inj heq) (ne_of_isBareChar hc rfl)
  · rfl

/-- A line with an entry is read into the document. -/
theorem run_line_of_entry {pair : Pair} (h : IsBare pair.1) {run : Line} {d' : Document}
    (hentry : entry.run (pair.write ++ rest) = .ok (run, rest)) (hrun : run d = .ok d') :
    (line d).run (pair.write ++ rest) = .ok (d', rest) := by
  have hwrite : pair.write ++ rest =
      pair.1.toList ++ ([' ', '=', ' '] ++ pair.2.write ++ ['\n'] ++ rest) := by
    simp [Pair.write]
  rw [hwrite] at hentry ⊢
  rw [line_run_of_isBare h]
  exact run_commit (run_checked hentry hrun)

/-- A blank line adds nothing to a document. -/
theorem run_line_blank (d : Document) (rest : List Char) :
    (line d).run ('\n' :: rest) = .ok (d, rest) :=
  (run_bind_of_ok (run_peek _)).trans (run_bind_of_ok (run_newline rest))

/-- Lines that are read one after the other up to the end of the text, each from its first
character on. -/
inductive Lines : Document → List Char → Document → Prop
  | done (d : Document) : Lines d [] d
  | next {d between last : Document} {cs rest : List Char}
      (h : (line d).run cs = .ok (between, rest)) (hlt : rest.length < cs.length)
      (hhead : ∀ c ∈ rest.head?, isBlank c = false) (more : Lines between rest last) :
      Lines d cs last

/-- Lines are read one after another, by induction on the lines. -/
theorem run_linesLoop {last : Document} {cs : List Char} (h : Lines d cs last) {fuel : Nat}
    (hfuel : cs.length < fuel) : (linesLoop fuel d).run cs = .ok (last, []) := by
  induction h generalizing fuel with
  | done d =>
      obtain ⟨fuel, rfl⟩ := Nat.exists_eq_succ_of_ne_zero (Nat.ne_of_gt hfuel)
      exact run_bind_of_ok (run_optional_none (.bind_of_ok (run_peek _) (declines_fail _)))
  | @next d between last cs rest h hlt hhead _ ih =>
      obtain ⟨fuel, rfl⟩ := Nat.exists_eq_succ_of_ne_zero (Nat.ne_of_gt (Nat.zero_lt_of_lt hfuel))
      refine (run_bind_of_ok (run_optional_some h)).trans ?_
      exact (run_bind_of_ok (run_blanks_nil hhead)).trans (ih (by omega))

end

/-! ## Tables -/

/-- The names in a table. -/
def Table.names (t : Table) : List String := t.entries.map fun entry => entry.1.name

/-- The document with more entries in its open table, which reaches over `span` then. -/
def Document.filled (d : Document) (more : List (Key × Item)) (span : Option Span) : Document :=
  { d with current := ⟨.defined, d.current.entries ++ more, span⟩ }

section

variable {t : Table} {name : String} {d : Document} {k : Key} {item : Item}

/-- A name that a table does not have is not found in it. -/
theorem Table.find?_eq_none (h : name ∉ t.names) : t.find? name = none := by
  have hnone : t.entries.find? (fun entry => entry.1.name == name) = none := by
    rw [List.find?_eq_none]
    rintro entry hentry heq
    exact h (List.mem_map.2 ⟨entry, hentry, eq_of_beq heq⟩)
  rw [Table.find?, hnone]
  rfl

/-- Removing a name that a table does not have changes nothing. -/
theorem Table.remove_eq_self (h : name ∉ t.names) : t.remove name = t := by
  have hfilter : t.entries.filter (fun entry => entry.1.name != name) = t.entries := by
    rw [List.filter_eq_self]
    intro entry hentry
    rw [bne_iff_ne]
    rintro rfl
    exact h (List.mem_map.2 ⟨entry, hentry, rfl⟩)
  rw [Table.remove, hfilter]

/-- A new key is added to a table that is being defined. -/
theorem Table.addHere_eq (hkind : t.kind = .defined) (hnew : k.name ∉ t.names) (repeated : Clash) :
    t.addHere false repeated k item = .ok (t.store k item) := by
  rw [Table.addHere, hkind, Table.find?_eq_none hnew]
  rfl

/-- A new entry goes to the end of the open table. -/
theorem exists_addEntry (item : Item) (hkind : d.current.kind = .defined)
    (hnew : k.name ∉ d.current.names) :
    ∃ span, d.addEntry [] k item = .ok (d.filled [(k, item)] span) := by
  have hadd : ∀ span repeated,
      Table.addHere false repeated k item ⟨d.current.kind, d.current.entries, span⟩ =
        .ok ⟨.defined, d.current.entries ++ [(k, item)], span⟩ := by
    intro span repeated
    rw [hkind]
    exact Table.addHere_eq (t := ⟨.defined, d.current.entries, span⟩) rfl hnew repeated
  apply Exists.intro
  unfold Document.addEntry
  simp only [List.isEmpty_nil, Bool.not_true, Table.change, hadd]
  rfl

/-- Before the first header, a new table is opened beside the entries. -/
theorem openTable_eq (hpath : d.path = []) (hnew : k.name ∉ d.current.names) (span : Span) :
    d.openTable [] k span = .ok ⟨d.current, ⟨.defined, [], some span⟩, [k], false⟩ := by
  have hclose : d.close = .ok ⟨d.current, .ofKind .defined, [], false⟩ := by
    unfold Document.close
    rw [hpath]
    rfl
  -- There is nothing under the name, so nothing is kept for the new table or taken out for it.
  unfold Document.openTable
  rw [hclose]
  simp only [Document.openTable.lookup, Table.change, bind, Except.bind, Table.find?_eq_none hnew,
    Table.remove_eq_self hnew]
  rfl

/-- At the end of the text, the open table goes to the end of the document. -/
theorem close_eq {d : Document} (hpath : d.path = [k]) (hlist : d.inList = false)
    (hnew : k.name ∉ d.root.names) :
    d.close = .ok ⟨d.root.store k d.current.item, .ofKind .defined, [], false⟩ := by
  unfold Document.close
  rw [hpath, hlist]
  -- The table stands in the root, and nothing there has its name.
  simp only [List.getLast?_singleton, List.dropLast_singleton, Table.change, bind, Except.bind,
    Bool.false_eq_true, if_false, Table.find?_eq_none hnew]
  rfl

end

/-! ## Documents -/

section

variable {d : Document} {rest : List Char} {pairs : List Pair}

/-- Entries have the names of the pairs that they are made of. -/
theorem names_of_forall₂ {entries : List (Key × Item)} (h : List.Forall₂ Pair.Of pairs entries) :
    entries.map (fun entry => entry.1.name) = pairs.map Prod.fst := by
  induction h with
  | nil => rfl
  | cons hof _ ih => rw [List.map_cons, List.map_cons, ih, hof.1]

/-- A text that starts with pairs starts with a bare character, unless there are none. -/
theorem head_flatMap_write {p : Char → Prop} (hbare : ∀ pair ∈ pairs, IsBare pair.1)
    (hp : ∀ c, isBareChar c = true → p c) (hrest : ∀ c ∈ rest.head?, p c) :
    ∀ c ∈ (pairs.flatMap Pair.write ++ rest).head?, p c := by
  cases pairs with
  | nil => exact hrest
  | cons pair pairs =>
      obtain ⟨c, cs, hname, hc⟩ := (hbare pair List.mem_cons_self).exists_cons
      simpa [Pair.write, hname] using hp c hc

/-- Lines with pairs fill the open table, and the lines after them go on from there. -/
theorem exists_lines_pairs (rest : List Char) (hbare : ∀ pair ∈ pairs, IsBare pair.1)
    (hkind : d.current.kind = .defined)
    (hnodup : (d.current.names ++ pairs.map Prod.fst).Nodup)
    (hrest : ∀ c ∈ rest.head?, isBlank c = false) :
    ∃ entries span, List.Forall₂ Pair.Of pairs entries ∧
      ∀ last, Lines (d.filled entries span) rest last →
        Lines d (pairs.flatMap Pair.write ++ rest) last := by
  -- The open table grows from line to line; what is kept is that no name to come is in it.
  induction pairs generalizing d with
  | nil =>
      refine ⟨[], d.current.span, .nil, fun last hlast => ?_⟩
      rwa [Document.filled, List.append_nil, ← hkind] at hlast
  | cons pair pairs ih =>
      obtain ⟨hpair, hpairs⟩ := List.forall_mem_cons.1 hbare
      obtain ⟨k, item, hentry, hof⟩ := run_entry hpair (pairs.flatMap Pair.write ++ rest)
      have hsplit : ((d.current.names ++ [k.name]) ++ pairs.map Prod.fst).Nodup := by
        rwa [List.append_assoc, List.singleton_append, hof.1]
      have hnew : k.name ∉ d.current.names := fun hmem =>
        (List.nodup_append.1 (List.nodup_append.1 hsplit).1).2.2 _ hmem _ List.mem_cons_self rfl
      obtain ⟨added, hadded⟩ := exists_addEntry item hkind hnew
      have hline := run_line_of_entry hpair hentry hadded
      obtain ⟨entries, span, hentries, hlines⟩ := ih (d := d.filled [(k, item)] added) hpairs rfl
        (by simpa [Document.filled, Table.names] using hsplit)
      refine ⟨(k, item) :: entries, span, .cons hof hentries, fun last hlast => ?_⟩
      rw [List.flatMap_cons, List.append_assoc]
      refine .next hline ?_ (head_flatMap_write hpairs (fun _ => isBlank_of_isBareChar) hrest)
        (hlines last ?_)
      · simp only [Pair.write, List.length_append, List.length_cons]
        omega
      · rwa [Document.filled, Document.filled, List.append_assoc]

/-- A blank line, the first header of the text, and lines with pairs up to its end. -/
theorem exists_lines_table {name : String} (hbare : ∀ pair ∈ pairs, IsBare pair.1)
    (hname : IsBare name) (hnodup : (pairs.map Prod.fst).Nodup) (hpath : d.path = [])
    (hnew : name ∉ d.current.names) :
    ∃ k entries span, k.name = name ∧ List.Forall₂ Pair.Of pairs entries ∧
      Lines d ('\n' :: '[' :: (name.toList ++ ']' :: '\n' :: pairs.flatMap Pair.write))
        ⟨d.current, ⟨.defined, entries, span⟩, [k], false⟩ := by
  obtain ⟨k, headerSpan, hheader, rfl⟩ := run_header hname (pairs.flatMap Pair.write)
  obtain ⟨entries, span, hentries, hlines⟩ := exists_lines_pairs []
    (d := ⟨d.current, ⟨.defined, [], some headerSpan⟩, [k], false⟩) hbare rfl hnodup (by simp)
  have hpairs := hlines _ (.done _)
  have hhead : ∀ c ∈ (pairs.flatMap Pair.write ++ []).head?, isBlank c = false :=
    head_flatMap_write hbare (fun _ => isBlank_of_isBareChar) (by simp)
  rw [List.append_nil] at hpairs hhead
  have hline : (line d).run ('[' :: (k.name.toList ++ ']' :: '\n' :: pairs.flatMap Pair.write)) =
      .ok (⟨d.current, ⟨.defined, [], some headerSpan⟩, [k], false⟩, pairs.flatMap Pair.write) := by
    refine (run_bind_of_ok (run_peek _)).trans (run_commit (run_labelled ?_))
    exact run_checked hheader (openTable_eq hpath hnew headerSpan)
  refine ⟨k, entries, span, rfl, hentries, .next (run_line_blank d _) (by simp) ?_ ?_⟩
  · simp [isBlank]
  · refine .next hline ?_ hhead hpairs
    simp only [List.length_cons, List.length_append]
    omega

/-- Pairs, and a table of pairs below them. -/
def writeDocument (pairs : List Pair) (name : String) (inner : List Pair) : List Char :=
  pairs.flatMap Pair.write ++
    '\n' :: '[' :: (name.toList ++ ']' :: '\n' :: inner.flatMap Pair.write)

/-- A document is read line by line. -/
theorem run_document {cs : List Char} {last : Document}
    (hhead : ∀ c ∈ cs.head?, isBlank c = false ∧ c ≠ '\ufeff')
    (h : Lines (Document.start cs) cs last) : document.run cs = .ok (last, []) := by
  have hmark : Declines (char '\ufeff') cs := declines_char fun hcs => (hhead _ hcs).2 rfl
  refine (run_bind_of_ok (run_get cs)).trans ((run_bind_of_ok (run_optional_none hmark)).trans ?_)
  refine (run_bind_of_ok (run_blanks_nil fun c hc => (hhead c hc).1)).trans ?_
  refine (run_bind_of_ok (run_get cs)).trans ?_
  exact run_bind_of_ok (run_linesLoop h (Nat.lt_succ_self _))

/-- The root of a document that is read and closed is what its text means. -/
theorem ofText_of_run {cs : List Char} {last closed : Document}
    (hrun : document.run cs = .ok (last, [])) (hclose : last.close = .ok closed) :
    ofText (String.ofList cs) = .ok closed.root := by
  have hdocument : document cs = .ok (last, []) := hrun
  unfold ofText
  simp only [String.toList_ofList, hdocument, hclose]

/-- A document with pairs and a table of pairs below them is read into these entries. -/
theorem ofText_writeDocument {name : String} {inner : List Pair}
    (hbare : ∀ pair ∈ pairs, IsBare pair.1) (hname : IsBare name)
    (hinner : ∀ pair ∈ inner, IsBare pair.1) (hnodup : (pairs.map Prod.fst).Nodup)
    (hnew : name ∉ pairs.map Prod.fst) (hinnerNodup : (inner.map Prod.fst).Nodup) :
    ∃ t entries k innerEntries span,
      ofText (String.ofList (writeDocument pairs name inner)) = .ok t ∧
      t.entries = entries ++ [(k, .table .defined innerEntries span)] ∧
      List.Forall₂ Pair.Of pairs entries ∧ k.name = name ∧
      List.Forall₂ Pair.Of inner innerEntries := by
  let below : List Char :=
    '\n' :: '[' :: (name.toList ++ ']' :: '\n' :: inner.flatMap Pair.write)
  let start := Document.start (writeDocument pairs name inner)
  obtain ⟨entries, span, hentries, hlines⟩ := exists_lines_pairs (d := start) below hbare
    rfl hnodup (by simp [below, isBlank])
  have hnames : (start.filled entries span).current.names = pairs.map Prod.fst :=
    names_of_forall₂ hentries
  obtain ⟨k, innerEntries, innerSpan, rfl, hinnerEntries, htable⟩ :=
    exists_lines_table (d := start.filled entries span) hinner hname hinnerNodup rfl
      (by rwa [hnames])
  have hhead : ∀ c ∈ (writeDocument pairs k.name inner).head?,
      isBlank c = false ∧ c ≠ '\ufeff' :=
    head_flatMap_write hbare
      (fun c hc => ⟨isBlank_of_isBareChar hc, ne_of_isBareChar hc rfl⟩) (by simp [isBlank])
  have htext := ofText_of_run (run_document hhead (hlines _ htable))
    (close_eq (k := k) rfl rfl (by rwa [hnames]))
  exact ⟨_, entries, k, innerEntries, innerSpan, htext, rfl, hentries, rfl, hinnerEntries⟩

end

end TypedSql.Toml
