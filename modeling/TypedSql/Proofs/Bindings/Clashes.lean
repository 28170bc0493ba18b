import TypedSql.Proofs.Bindings.Interfaces

namespace TypedSql

/-! # Outputs with one key

An interface has one field for a key, so the first output with a key is kept, and each later one
leaves a warning. Outputs are told by their places here: two outputs that are the same in everything
have two places, and each place is either kept or left out.
-/

namespace Contract

/-- An earlier output has the key of the one at this place. -/
def RepeatsKey (outputs : List OutputField) (i : Fin outputs.length) : Prop :=
  ∃ j < i, outputs[j].key = outputs[i].key

instance (outputs : List OutputField) (i : Fin outputs.length) :
    Decidable (RepeatsKey outputs i) :=
  inferInstanceAs (Decidable (∃ j < i, outputs[j].key = outputs[i].key))

/-- The places of the outputs that have a field, in order. -/
def kept (c : Contract) : List (Fin c.outputs.length) :=
  (List.finRange c.outputs.length).filter fun i => ¬ RepeatsKey c.outputs i

/-- The places of the outputs that have none, in order. -/
def leftOut (c : Contract) : List (Fin c.outputs.length) :=
  (List.finRange c.outputs.length).filter fun i => RepeatsKey c.outputs i

/-! ## Places and marks -/

section

variable {output : OutputField} {outputs : List OutputField}

theorem not_repeatsKey_zero : ¬ RepeatsKey (output :: outputs) (0 : Fin (outputs.length + 1)) :=
  fun ⟨j, hj, _⟩ => absurd hj (Fin.not_lt_zero j)

theorem repeatsKey_succ {i : Fin outputs.length} :
    RepeatsKey (output :: outputs) (i.succ : Fin (outputs.length + 1)) ↔
      output.key = outputs[i].key ∨ RepeatsKey outputs i := by
  unfold RepeatsKey
  refine Fin.exists_fin_succ.trans (or_congr ?_ (exists_congr fun j => ?_))
  · exact and_iff_right (Fin.succ_pos i)
  · exact and_congr_left fun _ => Fin.succ_lt_succ_iff

/-- An output is the first of its key when the key was not seen before and no earlier output
has it. -/
theorem firstOfKeys_eq (seen : List String) (outputs : List OutputField) (start : Nat) :
    firstOfKeys seen (outputs.zipIdx start) =
      ((List.finRange outputs.length).filter fun i =>
        outputs[i].key ∉ seen ∧ ¬ RepeatsKey outputs i).map
          fun i => (outputs[i], start + i.val) := by
  -- The keys that were seen and the place of the first output change with every output.
  induction outputs generalizing seen start with
  | nil => rfl
  | cons output rest ih =>
      have hplaces : List.finRange (output :: rest).length =
          (0 : Fin (rest.length + 1)) :: (List.finRange rest.length).map Fin.succ :=
        List.finRange_succ
      have hnew : ∀ i : Fin rest.length,
          rest[i].key ∉ output.key :: seen ∧ ¬ RepeatsKey rest i ↔
            rest[i].key ∉ seen ∧ ¬ RepeatsKey (output :: rest) i.succ := by
        intro i
        rw [repeatsKey_succ, List.mem_cons, not_or, not_or, eq_comm]
        exact ⟨fun ⟨⟨hkey, hseen⟩, hold⟩ => ⟨hseen, hkey, hold⟩,
          fun ⟨hseen, hkey, hold⟩ => ⟨⟨hkey, hseen⟩, hold⟩⟩
      have hothers : firstOfKeys (output.key :: seen) (rest.zipIdx (start + 1)) =
          (((List.finRange rest.length).map Fin.succ).filter fun i =>
            (output :: rest)[i].key ∉ seen ∧ ¬ RepeatsKey (output :: rest) i).map
              fun i => ((output :: rest)[i], start + i.val) := by
        rw [ih, List.filter_map, List.map_map]
        rw [List.filter_congr fun i _ => decide_eq_decide.2 (hnew i)]
        refine List.map_congr_left fun i _ => Prod.ext rfl ?_
        show start + 1 + i.val = start + (i.val + 1)
        omega
      rw [List.zipIdx_cons, firstOfKeys, hothers, hplaces]
      by_cases h : output.key ∈ seen
      · rw [if_pos (by simpa using h), List.filter_cons_of_neg (by simp [h])]
      · have hfirst : ¬ RepeatsKey (output :: rest) (0 : Fin (rest.length + 1)) :=
          not_repeatsKey_zero
        rw [if_neg (by simpa using h), List.filter_cons_of_pos (by simp [h, hfirst])]
        rfl

end

/-- The outputs that are kept, with their places. -/
theorem firstOfKeys_zipIdx (c : Contract) :
    firstOfKeys [] c.outputs.zipIdx = c.kept.map fun i => (c.outputs[i], i.val) := by
  have hnew : ∀ i : Fin c.outputs.length,
      c.outputs[i].key ∉ ([] : List String) ∧ ¬ RepeatsKey c.outputs i ↔
        ¬ RepeatsKey c.outputs i := fun i => and_iff_right List.not_mem_nil
  rw [firstOfKeys_eq, List.filter_congr fun i _ => decide_eq_decide.2 (hnew i)]
  refine List.map_congr_left fun i _ => Prod.ext rfl ?_
  exact Nat.zero_add _

theorem distinctOutputs_eq (c : Contract) :
    c.distinctOutputs = c.kept.map fun i => c.outputs[i] := by
  rw [distinctOutputs, firstOfKeys_zipIdx, List.map_map]
  rfl

/-- An output that is none of the kept ones has the key of an earlier one. -/
theorem clashingOutputs_eq (c : Contract) :
    c.clashingOutputs = c.leftOut.map fun i => c.outputs[i] := by
  have hplaces : c.outputs.zipIdx =
      (List.finRange c.outputs.length).map fun i => (c.outputs[i], i.val) := by
    apply List.ext_getElem <;> simp
  have hleftOut : ∀ i : Fin c.outputs.length,
      (!(c.kept.map Fin.val).contains i.val) = decide (RepeatsKey c.outputs i) := by
    intro i
    have hmem : i.val ∈ c.kept.map Fin.val ↔ ¬ RepeatsKey c.outputs i := by
      rw [List.mem_map_of_injective fun _ _ => Fin.eq_of_val_eq, kept, List.mem_filter]
      simp
    by_cases h : RepeatsKey c.outputs i <;> simp [hmem, h]
  have hkept : (firstOfKeys [] c.outputs.zipIdx).map Prod.snd = c.kept.map Fin.val := by
    rw [firstOfKeys_zipIdx, List.map_map]
    rfl
  rw [clashingOutputs, hkept, hplaces, List.filter_map, List.map_map]
  exact congrArg (List.map _) (List.filter_congr fun i _ => hleftOut i)

/-! ## What is kept and what is left out -/

/-- Of two kept outputs the later one has a new key. -/
theorem nodup_keys_kept (c : Contract) : (c.kept.map fun i => c.outputs[i].key).Nodup := by
  refine List.pairwise_map.2 ?_
  have hplaces : c.kept.Pairwise (· < ·) := (List.pairwise_lt_finRange _).filter _
  refine hplaces.imp_of_mem fun {i j} _ hj hij hkey => ?_
  have hnew : ¬ RepeatsKey c.outputs j := by simpa using (List.mem_filter.1 hj).2
  exact hnew ⟨i, hij, hkey⟩

theorem length_kept_add_leftOut (c : Contract) :
    c.kept.length + c.leftOut.length = c.outputs.length := by
  have hsplit := List.length_eq_length_filter_add (l := List.finRange c.outputs.length)
    fun i => decide (RepeatsKey c.outputs i)
  rw [List.length_finRange, Nat.add_comm] at hsplit
  have hkept : c.kept = (List.finRange c.outputs.length).filter
      fun i => !decide (RepeatsKey c.outputs i) := by
    simp [kept]
  rw [hkept]
  exact hsplit.symm

end Contract

namespace Bindings

/-- A warning that an output is left out, with its key and its relation. -/
structure WarnsOf (names : InterfaceNames) (output : OutputField) (d : Diagnostic) : Prop where
  code : d.code = .sqlDuplicateOutput
  severity : d.severity = .warn
  message : d.message = "Output `" ++ output.key ++ "` of relation `" ++ output.relation ++
    "` clashes with an earlier output and is left out of `" ++ names.result ++ "`"

theorem warnsOf_clash (names : InterfaceNames) (output : OutputField) :
    WarnsOf names output (clash names output) := by
  have hmiddle : "` clashes with an earlier output and is left out of `" =
      "` clashes with an earlier output and " ++ "is left out of `" := by decide
  refine ⟨rfl, rfl, ?_⟩
  rw [hmiddle]
  simp only [clash, Diagnostic.ofMessage, toString, String.append_assoc]

/-- The outputs of a statement fall into two parts. An output is left out when an earlier one has
its key; the others, in order and with their rendered types, are the fields of the row interface, so
their names differ and every key is among them. Each output that is left out has one warning with
its key and its relation, in order, and fields and warnings together are as many as the outputs. -/
theorem outputs_partitioned (names : InterfaceNames) (module : String) {c : Contract}
    (h : c.outputs ≠ []) :
    ∃ result, (declaration names module c).interfaces.getLast? = some result ∧
      result.name = names.result ∧
      result.fields = c.kept.map (fun i => c.outputs[i].member) ∧
      (result.fields.map Member.name).Nodup ∧
      (∀ output ∈ c.outputs, output.key ∈ result.fields.map Member.name) ∧
      List.Forall₂ (fun i d => WarnsOf names c.outputs[i] d) c.leftOut (clashes names c) ∧
      result.fields.length + (clashes names c).length = c.outputs.length := by
  have hmembers : c.distinctOutputs.map OutputField.member =
      c.kept.map fun i => c.outputs[i].member := by
    rw [Contract.distinctOutputs_eq, List.map_map]
    rfl
  have hclashes : clashes names c = c.leftOut.map fun i => clash names c.outputs[i] := by
    rw [clashes, Contract.clashingOutputs_eq, List.map_map]
    rfl
  refine ⟨⟨names.result, c.distinctOutputs.map OutputField.member⟩, ?_, rfl, hmembers, ?distinct,
    ?every, ?warnings, ?count⟩
  · have houtputs : ¬ c.outputs.isEmpty = true := by simpa using h
    rw [declaration, interfaces, if_neg houtputs]
    exact List.getLast?_concat
  case distinct =>
    have hnodup := c.nodup_keys_kept
    rw [hmembers, List.map_map]
    exact hnodup
  case every =>
    intro output houtput
    have hnames : (c.distinctOutputs.map OutputField.member).map Member.name =
        c.distinctOutputs.map OutputField.key := List.map_map
    rw [hnames, Contract.keys_distinctOutputs, List.mem_eraseDups]
    exact List.mem_map_of_mem houtput
  case warnings =>
    rw [hclashes, List.forall₂_map_right_iff]
    exact List.forall₂_same.2 fun i _ => warnsOf_clash names c.outputs[i]
  case count =>
    rw [hmembers, hclashes, List.length_map, List.length_map]
    exact c.length_kept_add_leftOut

/-- An output that is there twice, and an alias that is the name of another column. -/
theorem outputs_partitioned_twice :
    let number : OutputField := ⟨"id", "products", "number", none, false, false⟩
    let name : OutputField := ⟨"name", "products", "string", none, true, false⟩
    let title : OutputField := ⟨"title", "categories", "string", some "name", false, false⟩
    let c : Contract := ⟨.select, [], [number, name, number, title], []⟩
    c.outputs ≠ [] ∧ c.leftOut = [2, 3] ∧
      ∃ result, (declaration .standard "q.sql" c).interfaces.getLast? = some result ∧
        result.fields = [⟨"id", "number"⟩, ⟨"name", "string | null"⟩] ∧
        (result.fields.map Member.name).Nodup ∧
        List.Forall₂ (fun i d => WarnsOf .standard c.outputs[i] d) c.leftOut
          (clashes .standard c) ∧
        result.fields.length + (clashes .standard c).length = 4 := by
  intro number name title c
  have hne : c.outputs ≠ [] := List.cons_ne_nil _ _
  obtain ⟨result, hresult, -, hfields, hnodup, -, hwarnings, hcount⟩ :=
    outputs_partitioned .standard "q.sql" hne
  exact ⟨hne, by decide, result, hresult, hfields.trans (by decide), hnodup, hwarnings, hcount⟩

end Bindings

end TypedSql
