import TypedSql.Config.File
import TypedSql.Proofs.Outcome
import TypedSql.Proofs.Toml.Entries

namespace TypedSql

open Toml

/-! # Written configurations are read again

A configuration is written as pairs of names and contents, with a table of its interface names below
them. An output directory that is not set has no pair of its own, and where there is none, none is
set.
-/

/-! ## Interface names -/

namespace InterfaceNames

/-- Interface names as pairs. -/
def pairs (names : InterfaceNames) : List Pair :=
  [("input_interface", .text names.input), ("result_interface", .text names.result)]

theorem withEntry_input {entry : Key × Item} {s : String} (names : InterfaceNames)
    (h : Pair.Of ("input_interface", .text s) entry) :
    names.withEntry entry = .ok { names with input := s } := by
  obtain ⟨key, item⟩ := entry
  obtain ⟨hname, span, hitem⟩ := h
  dsimp only at hname hitem
  rw [withEntry, hname, hitem]
  rfl

theorem withEntry_result {entry : Key × Item} {s : String} (names : InterfaceNames)
    (h : Pair.Of ("result_interface", .text s) entry) :
    names.withEntry entry = .ok { names with result := s } := by
  obtain ⟨key, item⟩ := entry
  obtain ⟨hname, span, hitem⟩ := h
  dsimp only at hname hitem
  rw [withEntry, hname, hitem]
  rfl

/-- Each name has an entry, so nothing is left of what was there before. -/
theorem foldlM_withEntry {names : InterfaceNames} {entries : List (Key × Item)}
    (h : List.Forall₂ Pair.Of names.pairs entries) (start : InterfaceNames) :
    entries.foldlM withEntry start = .ok names := by
  unfold pairs at h
  obtain _ | ⟨hinput, _ | ⟨hresult, _ | _⟩⟩ := h
  rw [Outcome.foldlM_cons_of_eq_ok (withEntry_input _ hinput),
    Outcome.foldlM_cons_of_eq_ok (withEntry_result _ hresult)]
  rfl

theorem exists_names (names : InterfaceNames) : ∃ written, names.pairs.map Prod.fst = written ∧
    (∀ name ∈ written, IsBare name) ∧ written.Nodup :=
  ⟨["input_interface", "result_interface"], rfl, by decide, by decide⟩

end InterfaceNames

/-! ## Entries of a configuration -/

namespace Config

section

variable {item : Item}

theorem decodePath_text {s : String} (h : item.IsText s) : decodePath item = .ok ⟨s⟩ := by
  obtain ⟨span, rfl⟩ := h
  rfl

theorem decode_paths {paths : List Path} (h : item.IsTexts (paths.map Path.text)) :
    Decoder.list decodePath item = .ok paths := by
  obtain ⟨items, span, rfl, h⟩ := h
  show items.mapM decodePath = .ok paths
  induction paths generalizing items with
  | nil =>
      cases h
      rfl
  | cons p paths ih =>
      obtain ⟨item, items, hitem, hitems, rfl⟩ := List.forall₂_cons_left_iff.1 h
      rw [Outcome.mapM_cons, decodePath_text hitem, ih items hitems]
      rfl

theorem ofEntry_of_ok {α : Type} {decode : Decoder α} {a : α} {entry : Key × Item}
    (h : decode entry.2 = .ok a) : Decoder.ofEntry decode entry = .ok a := by
  rw [Decoder.ofEntry, h]
  rfl

/-- The entry of the dialect sets the dialect only. -/
theorem withEntry_dialect (c : Config) {d : Dialect} {entry : Key × Item}
    (h : Pair.Of ("dialect", .text d.name) entry) :
    c.withEntry entry = .ok { c with dialect := d } := by
  obtain ⟨hname, span, hitem⟩ := h
  have hdecode : Decoder.ofEntry (.choice Dialect.all Dialect.name) entry = .ok d := by
    refine ofEntry_of_ok ?_
    rw [hitem]
    cases d <;> rfl
  rw [withEntry, hname]
  dsimp only
  rw [hdecode]
  rfl

/-- The entry of the schema sets the schema only. -/
theorem withEntry_schema (c : Config) {s : String} {entry : Key × Item}
    (h : Pair.Of ("schema", .text s) entry) :
    c.withEntry entry = .ok { c with schema := ⟨s⟩ } := by
  obtain ⟨hname, hitem⟩ := h
  rw [withEntry, hname]
  dsimp only
  rw [ofEntry_of_ok (decodePath_text hitem)]
  rfl

/-- The entry of the sources sets the sources only. -/
theorem withEntry_sources (c : Config) {paths : List Path} {entry : Key × Item}
    (h : Pair.Of ("sources", .list (paths.map Path.text)) entry) :
    c.withEntry entry = .ok { c with sources := paths } := by
  obtain ⟨hname, hitem⟩ := h
  rw [withEntry, hname]
  dsimp only
  rw [ofEntry_of_ok (decode_paths hitem)]
  rfl

/-- The entry of the output directory sets the output directory only. -/
theorem withEntry_outDir (c : Config) {s : String} {entry : Key × Item}
    (h : Pair.Of ("out_dir", .text s) entry) :
    c.withEntry entry = .ok { c with outDir := some ⟨s⟩ } := by
  obtain ⟨hname, hitem⟩ := h
  rw [withEntry, hname]
  dsimp only
  rw [ofEntry_of_ok (decodePath_text hitem)]
  rfl

/-- The table of the bindings sets the names of the interfaces only. -/
theorem withEntry_bindings (c : Config) {names : InterfaceNames} {entry : Key × Item}
    {entries : List (Key × Item)} {kind : TableKind} {span : Option Span}
    (hname : entry.1.name = "bindings") (hitem : entry.2 = .table kind entries span)
    (h : List.Forall₂ Pair.Of names.pairs entries) :
    c.withEntry entry = .ok { c with bindings := names } := by
  have hdecode : InterfaceNames.decode entry.2 = .ok names := by
    rw [hitem, InterfaceNames.decode, InterfaceNames.foldlM_withEntry h]
    rfl
  rw [withEntry, hname]
  show (do return { c with bindings := ← Decoder.ofEntry InterfaceNames.decode entry }) = _
  rw [ofEntry_of_ok hdecode]
  rfl

end

/-! ## Whole configurations -/

/-- A configuration as pairs, its interface names apart. -/
def pairs (c : Config) : List Pair :=
  [("dialect", .text c.dialect.name), ("schema", .text c.schema.text),
    ("sources", .list (c.sources.map Path.text))] ++
  match c.outDir with
  | some dir => [("out_dir", .text dir.text)]
  | none => []

/-- A configuration is written as a document of its entries and of one table. -/
theorem text_eq_writeDocument (c : Config) :
    c.text = String.ofList (writeDocument c.pairs "bindings" c.bindings.pairs) := by
  have hheader : "\n[bindings]\n".toList = '\n' :: '[' :: ("bindings".toList ++ [']', '\n']) := rfl
  unfold text pairs
  rw [hheader]
  cases c.outDir <;>
    simp [writeDocument, Pair.write, writeEntry, Content.write, InterfaceNames.pairs]

/-- The entries of a configuration, read on top of one without an output directory. -/
theorem foldlM_withEntry {c start : Config} {entries : List (Key × Item)}
    (h : List.Forall₂ Pair.Of c.pairs entries) (hstart : start.outDir = none) :
    entries.foldlM withEntry start =
      .ok { c with bindings := start.bindings, root := start.root } := by
  obtain ⟨dialect, schema, sources, outDir, bindings, root⟩ := c
  unfold pairs at h
  -- There are as many entries as pairs: three, or four with an output directory.
  cases outDir with
  | none =>
      obtain _ | ⟨hdialect, _ | ⟨hschema, _ | ⟨hsources, _ | _⟩⟩⟩ := h
      rw [Outcome.foldlM_cons_of_eq_ok (withEntry_dialect _ hdialect),
        Outcome.foldlM_cons_of_eq_ok (withEntry_schema _ hschema),
        Outcome.foldlM_cons_of_eq_ok (withEntry_sources _ hsources), ← hstart]
      rfl
  | some dir =>
      obtain _ | ⟨hdialect, _ | ⟨hschema, _ | ⟨hsources, _ | ⟨hdir, _ | _⟩⟩⟩⟩ := h
      rw [Outcome.foldlM_cons_of_eq_ok (withEntry_dialect _ hdialect),
        Outcome.foldlM_cons_of_eq_ok (withEntry_schema _ hschema),
        Outcome.foldlM_cons_of_eq_ok (withEntry_sources _ hsources),
        Outcome.foldlM_cons_of_eq_ok (withEntry_outDir _ hdir)]
      rfl

/-- All names are bare, and none comes twice. -/
theorem exists_names (c : Config) : ∃ names, c.pairs.map Prod.fst = names ∧
    (∀ name ∈ names, IsBare name) ∧ (names ++ ["bindings"]).Nodup := by
  unfold pairs
  cases c.outDir with
  | none => exact ⟨["dialect", "schema", "sources"], rfl, by decide, by decide⟩
  | some dir => exact ⟨["dialect", "schema", "sources", "out_dir"], rfl, by decide, by decide⟩

theorem ofText_text (c : Config) (root : Path) : ofText root c.text = .ok { c with root } := by
  obtain ⟨names, rfl, hbare, hnodup⟩ := c.exists_names
  obtain ⟨hnames, -, hnew⟩ := List.nodup_append.1 hnodup
  obtain ⟨_, rfl, hinner, hinnerNames⟩ := c.bindings.exists_names
  have htable : IsBare "bindings" ∧ "bindings" ∉ c.pairs.map Prod.fst :=
    ⟨by decide, fun hmem => hnew _ hmem _ List.mem_cons_self rfl⟩
  obtain ⟨t, entries, key, innerEntries, span, htext, ht, hentries, hkey, hinnerEntries⟩ :=
    ofText_writeDocument (List.forall_mem_map.1 hbare) htable.1 (List.forall_mem_map.1 hinner)
      hnames htable.2 hinnerNames
  rw [← text_eq_writeDocument] at htext
  have hdecode : t.entries.foldlM withEntry (standard root) = .ok { c with root } := by
    rw [ht, List.foldlM_append, foldlM_withEntry hentries rfl]
    exact (Outcome.foldlM_cons_of_eq_ok (withEntry_bindings _ hkey rfl hinnerEntries)).trans rfl
  unfold ofText
  rw [htext]
  show Except.mapError _ (t.entries.foldlM withEntry (standard root)) = _
  rw [hdecode]
  rfl

/-- A configuration that is saved is loaded again from the text that was written: nothing but the
root is different, which is the working directory then. -/
theorem load_saved_text (c : Config) (p : Path) {m : Type → Type} [Monad m] [FileAccess m] :
    (c.save p : m (Except ConfigError Unit)) =
        (do return (← FileAccess.write p c.text).mapError .unreachable) ∧
      (load c.text : m (Except ConfigError Config)) =
        (do return .ok { c with root := ← FileAccess.workingDirectory }) := by
  refine ⟨rfl, ?_⟩
  unfold load
  simp only [ofText_text]
  rfl

end Config

end TypedSql
