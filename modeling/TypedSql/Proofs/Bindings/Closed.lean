import TypedSql.Proofs.Bindings.Interfaces

namespace TypedSql

/-! # The names in a declaration

A declaration refers to its interfaces by name: the functions take the parameter interface and
promise rows of the row interface. Every name that a function uses is the name of an interface of
the declaration, and every interface is used. Two interfaces have one name only when both are there
and are configured so.
-/

namespace Signature

/-- The parameter `input` is of the type `name`. -/
def Takes (s : Signature) (name : String) : Prop :=
  ⟨"input", name⟩ ∈ s.params

/-- The rows that are promised are of the type `name`: all of them, or the first one. -/
def Promises (s : Signature) (name : String) : Prop :=
  (s.name = "query" ∧ s.returns = "Promise<" ++ name ++ "[]>") ∨
    (s.name = "one" ∧ s.returns = "Promise<" ++ name ++ ">")

instance (s : Signature) (name : String) : Decidable (s.Takes name) :=
  inferInstanceAs (Decidable (_ ∈ _))

instance (s : Signature) (name : String) : Decidable (s.Promises name) :=
  inferInstanceAs (Decidable (_ ∨ _))

end Signature

namespace Bindings

variable {names : InterfaceNames} {c : Contract} {s : Signature} {name : String}

/-! ## What a function uses -/

theorem takes_iff (hs : s ∈ functions names c) :
    s.Takes name ↔ c.inputs ≠ [] ∧ name = names.input := by
  have hparams : s.params = parameters names c := by
    unfold functions at hs
    split at hs
    · rw [List.mem_singleton.1 hs]
    · rcases List.mem_cons.1 hs with rfl | hs
      · rfl
      · rw [List.mem_singleton.1 hs]
  unfold Signature.Takes
  rw [hparams, parameters]
  cases c.inputs <;> simp

theorem append_cancel_middle {a b front back : String}
    (h : front ++ a ++ back = front ++ b ++ back) :
    a = b := by
  have hlist := congrArg String.toList h
  simp only [String.toList_append, List.append_assoc] at hlist
  exact String.toList_inj.1 (List.append_cancel_right (List.append_cancel_left hlist))

/-- A promise of nothing is no promise of rows. -/
theorem void_ne_rows (name : String) : "Promise<void>" ≠ "Promise<" ++ name ++ "[]>" := by
  intro h
  have hback := congrArg (fun t : String => t.toList.reverse.take 2) h
  have hrows : "[]>".toList.reverse = ['>', ']', '['] := by decide
  have hvoid : "Promise<void>".toList.reverse.take 2 = ['>', 'd'] := by decide
  simp only [String.toList_append, List.reverse_append, hrows, hvoid] at hback
  simp at hback

theorem promises_iff (hs : s ∈ functions names c) :
    s.Promises name ↔ c.outputs ≠ [] ∧ name = names.result := by
  -- The two functions that promise rows are told apart by their names.
  have hquery : "query" ≠ "one" := by decide
  unfold functions at hs
  cases houtputs : c.outputs with
  | nil =>
      rw [houtputs] at hs
      rw [List.mem_singleton.1 hs]
      refine iff_of_false ?_ (fun h => h.1 rfl)
      rintro (⟨_, hreturns⟩ | ⟨hname, _⟩)
      · exact void_ne_rows name hreturns
      · exact hquery hname
  | cons output rest =>
      rw [houtputs] at hs
      refine Iff.trans ?_ (and_iff_right (List.cons_ne_nil output rest)).symm
      rcases List.mem_cons.1 hs with rfl | hs
      · constructor
        · rintro (⟨_, hreturns⟩ | ⟨hname, _⟩)
          · exact (append_cancel_middle hreturns).symm
          · exact absurd hname hquery
        · rintro rfl
          exact .inl ⟨rfl, rfl⟩
      · rw [List.mem_singleton.1 hs]
        constructor
        · rintro (⟨hname, _⟩ | ⟨_, hreturns⟩)
          · exact absurd hname hquery.symm
          · exact (append_cancel_middle hreturns).symm
        · rintro rfl
          exact .inr ⟨rfl, rfl⟩

/-- There is a function for every contract. -/
theorem exists_mem_functions (names : InterfaceNames) (c : Contract) :
    ∃ s, s ∈ functions names c := by
  unfold functions
  split <;> exact ⟨_, List.mem_cons_self⟩

/-! ## What is declared -/

/-- Both interfaces are there, under one name. -/
def SharedName (names : InterfaceNames) (c : Contract) : Prop :=
  names.input = names.result ∧ c.inputs ≠ [] ∧ c.outputs ≠ []

instance (names : InterfaceNames) (c : Contract) : Decidable (SharedName names c) :=
  inferInstanceAs (Decidable (_ ∧ _))

theorem input_mem_interfaces (h : c.inputs ≠ []) :
    ⟨names.input, c.inputs.map InputParameter.member⟩ ∈ interfaces names c := by
  refine List.mem_append_left _ ?_
  rw [if_neg (by simpa using h)]
  exact List.mem_singleton_self _

theorem result_mem_interfaces (h : c.outputs ≠ []) :
    ⟨names.result, c.distinctOutputs.map OutputField.member⟩ ∈ interfaces names c := by
  refine List.mem_append_right _ ?_
  rw [if_neg (by simpa using h)]
  exact List.mem_singleton_self _

/-- A name that is used is declared once, or twice where both interfaces share it. -/
theorem count_name_interfaces
    (h : (c.inputs ≠ [] ∧ name = names.input) ∨ (c.outputs ≠ [] ∧ name = names.result)) :
    ((interfaces names c).map Interface.name).count name =
      if SharedName names c then 2 else 1 := by
  by_cases hinputs : c.inputs = []
  · obtain ⟨houtputs, rfl⟩ := h.resolve_left fun hin => hin.1 hinputs
    simp [interfaces, SharedName, hinputs, houtputs]
  · by_cases houtputs : c.outputs = []
    · obtain ⟨_, rfl⟩ := h.resolve_right fun hout => hout.1 houtputs
      simp [interfaces, SharedName, hinputs, houtputs]
    · by_cases hnames : names.input = names.result
      · rcases h with ⟨_, rfl⟩ | ⟨_, rfl⟩ <;>
          simp [interfaces, SharedName, hinputs, houtputs, hnames]
      · have hlist : (interfaces names c).map Interface.name = [names.input, names.result] := by
          simp [interfaces, hinputs, houtputs]
        have hshared : ¬ SharedName names c := fun hshared => hnames hshared.1
        rw [hlist, if_neg hshared]
        -- Of two names either one is declared once.
        rcases h with ⟨_, rfl⟩ | ⟨_, rfl⟩
        · rw [List.count_cons_self, List.count_eq_zero.2 (by simpa using hnames)]
        · rw [List.count_cons_of_ne hnames, List.count_cons_self, List.count_nil]

/-- The declaration of a contract is closed. A name that a function uses is declared once, unless
both interfaces are there and configured under one name, when it is declared twice. The type of
`input` is declared with the inputs as its fields, the type of the promised rows with a field for
every key of an output, and every interface is used by a function. -/
theorem declaration_closed (names : InterfaceNames) (module : String) (c : Contract) :
    (∀ s ∈ (declaration names module c).functions, ∀ name, s.Takes name ∨ s.Promises name →
      ((declaration names module c).interfaces.map Interface.name).count name =
        if SharedName names c then 2 else 1) ∧
    (∀ s ∈ (declaration names module c).functions, ∀ name, s.Takes name →
      ⟨name, c.inputs.map InputParameter.member⟩ ∈ (declaration names module c).interfaces) ∧
    (∀ s ∈ (declaration names module c).functions, ∀ name, s.Promises name →
      ∃ i ∈ (declaration names module c).interfaces,
        i.name = name ∧ i.fields.map Member.name = (c.outputs.map OutputField.key).eraseDups) ∧
    ∀ i ∈ (declaration names module c).interfaces,
      ∃ s ∈ (declaration names module c).functions, s.Takes i.name ∨ s.Promises i.name := by
  refine ⟨?once, ?input, ?result, ?used⟩
  case once =>
    intro s hs name huse
    rw [takes_iff hs, promises_iff hs] at huse
    exact count_name_interfaces huse
  case input =>
    intro s hs name htakes
    obtain ⟨hinputs, rfl⟩ := (takes_iff hs).1 htakes
    exact input_mem_interfaces hinputs
  case result =>
    intro s hs name hpromises
    obtain ⟨houtputs, rfl⟩ := (promises_iff hs).1 hpromises
    refine ⟨_, result_mem_interfaces houtputs, rfl, ?_⟩
    rw [List.map_map, ← Contract.keys_distinctOutputs]
    rfl
  case used =>
    intro i hi
    obtain ⟨s, hs⟩ := exists_mem_functions names c
    refine ⟨s, hs, ?_⟩
    rw [takes_iff hs, promises_iff hs]
    rcases List.mem_append.1 hi with hi | hi
    · by_cases hinputs : c.inputs = []
      · simp [hinputs] at hi
      · rw [if_neg (by simpa using hinputs)] at hi
        exact .inl ⟨hinputs, congrArg Interface.name (List.mem_singleton.1 hi)⟩
    · by_cases houtputs : c.outputs = []
      · simp [houtputs] at hi
      · rw [if_neg (by simpa using houtputs)] at hi
        exact .inr ⟨houtputs, congrArg Interface.name (List.mem_singleton.1 hi)⟩

/-- With the standard names both interfaces of a query are declared once. -/
theorem declaration_closed_select :
    ∃ c, Analysis.analyze .postgres
          (Schema.empty.withTable "products" [("id", ⟨"number", false, false⟩)])
          "select id from products where id = :id" = .ok c ∧
      ∀ name ∈ ["Input", "Result"],
        ((declaration .standard "q.sql" c).interfaces.map Interface.name).count name = 1 := by
  refine ⟨⟨.select, [⟨"id", "any", false, false⟩],
    [⟨"id", "products", "number", none, false, false⟩], []⟩, ?_, ?_⟩
  · exact Outcome.eq_ok_of_toOption (by decide +kernel)
  · intro name hname
    have hclosed := (declaration_closed .standard "q.sql"
      ⟨.select, [⟨"id", "any", false, false⟩],
        [⟨"id", "products", "number", none, false, false⟩], []⟩).1
      ⟨"query", [⟨"input", "Input"⟩], "Promise<Result[]>"⟩ (by decide) name
    rw [if_neg (by decide)] at hclosed
    refine hclosed ?_
    rcases List.mem_cons.1 hname with rfl | hname
    · exact .inl (by decide)
    · rw [List.mem_singleton.1 hname]
      exact .inr (by decide)

/-- A query whose two interfaces are configured under one name: the name is declared twice, even
where both declarations have the same field. -/
theorem declaration_shares_name :
    ∃ c, Analysis.analyze .postgres
          (Schema.empty.withTable "products" [("id", ⟨"number", false, false⟩)])
          "---\nid: number\n---\nselect id from products where id = :id" = .ok c ∧
      (∃ s ∈ (declaration ⟨"Row", "Row"⟩ "q.sql" c).functions, s.Takes "Row" ∧ s.Promises "Row") ∧
      (declaration ⟨"Row", "Row"⟩ "q.sql" c).interfaces =
        [⟨"Row", [⟨"id", "number"⟩]⟩, ⟨"Row", [⟨"id", "number"⟩]⟩] ∧
      ((declaration ⟨"Row", "Row"⟩ "q.sql" c).interfaces.map Interface.name).count "Row" ≠ 1 := by
  refine ⟨⟨.select, [⟨"id", "number", false, false⟩],
    [⟨"id", "products", "number", none, false, false⟩], []⟩, ?_, ?_, by decide, by decide⟩
  · exact Outcome.eq_ok_of_toOption (by decide +kernel)
  · exact ⟨⟨"query", [⟨"input", "Row"⟩], "Promise<Row[]>"⟩, by decide, by decide, by decide⟩

end Bindings

end TypedSql
