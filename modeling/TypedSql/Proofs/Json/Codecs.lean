import TypedSql.Json.Codec
import TypedSql.Proofs.Json.Values
import TypedSql.Proofs.Outcome

namespace TypedSql.Json

open Reader Reading

/-! # Codecs that restore what they write

A codec restores a value when the value is read back from its written form, off a text in either
layout as well as from a value that was read before. The codecs of single values do, and lists and
records do when the codecs of their parts do: a field that is written is restored by its own codec,
and one that is left out has to be the value that its absence stands for.
-/

namespace Codec

variable {α β σ τ : Type} {layout : Layout} {depth : Nat}

/-- The written form of a value reads as the value again. -/
structure Restores (codec : Codec α) (x : α) : Prop where
  isDecimal : (codec.toJson x).isDecimal = false
  read : ∀ (layout : Layout) (depth : Nat) {gap rest : List Char}, Gap gap → Ends rest →
    codec.read.run (gap ++ (write layout depth (codec.toJson x) ++ rest)) = .ok (x, rest)
  ofJson : codec.ofJson (codec.toJson x) = .ok x

/-- A text that a codec wrote, in either layout. -/
theorem Restores.ofText {codec : Codec α} {x : α} (h : codec.Restores x) (layout : Layout) :
    codec.ofText (String.ofList (write layout 0 (codec.toJson x))) = .ok x := by
  have hread := h.read layout 0 gap_nil ends_nil
  rw [List.nil_append, List.append_nil] at hread
  exact readAll_ofList hread

/-- A codec that is carried over to another type restores what comes back from there. -/
theorem Restores.map {codec : Codec α} {forth : α → β} {back : β → α} {y : β}
    (h : codec.Restores (back y)) (hback : forth (back y) = y) :
    (codec.map forth back).Restores y where
  isDecimal := h.isDecimal
  read layout depth _ _ hgap hrest := by
    have hread : (codec.map forth back).read.run _ = _ :=
      run_map_of_ok (h.read layout depth hgap hrest)
    rwa [hback] at hread
  ofJson := by
    show forth <$> codec.ofJson (codec.toJson (back y)) = .ok y
    rw [h.ofJson]
    exact congrArg Except.ok hback

/-! ## Single values -/

/-- Texts are restored. -/
theorem restores_textNamed (expected s : String) : (textNamed expected).Restores s where
  isDecimal := rfl
  read layout depth gap rest hgap _ := by
    refine (run_bind_of_ok (run_peekValue hgap rfl)).trans ?_
    exact run_string s rest
  ofJson := rfl

theorem restores_text (s : String) : Codec.text.Restores s := restores_textNamed _ s

/-- Truth values are restored. -/
theorem restores_flag (value : Bool) : flag.Restores value where
  isDecimal := rfl
  read layout depth gap rest hgap _ := by
    cases value with
    | true =>
        refine (run_bind_of_ok (run_peekValue hgap rfl)).trans ?_
        refine (run_bind_of_ok (run_drop _ _)).trans ?_
        exact run_bind_of_ok (run_word ['r', 'u', 'e'] rest)
    | false =>
        refine (run_bind_of_ok (run_peekValue hgap rfl)).trans ?_
        refine (run_bind_of_ok (run_drop _ _)).trans ?_
        exact run_bind_of_ok (run_word ['a', 'l', 's', 'e'] rest)
  ofJson := rfl

/-- A number within the limit is taken as it is. -/
theorem natural_of_le {limit n : Nat} (h : n ≤ limit) (expected : String) :
    natural limit expected (.integer n) = .ok n := by
  simp [natural, h]

/-- Counts within their limit are restored. -/
theorem restores_count {limit n : Nat} {expected : String} (hn : n ≤ limit)
    (hlimit : limit ≤ maxNatural) : (count limit expected).Restores n where
  isDecimal := rfl
  read layout depth gap rest hgap hrest := by
    have hnumber := run_number (Nat.le_trans hn hlimit) hrest
    obtain ⟨c, cs, hwrite, hdigit⟩ := exists_writeInteger_natural n
    have hpeek : peekValue.run (gap ++ (writeInteger n ++ rest)) =
        .ok (c, writeInteger n ++ rest) := by
      rw [hwrite]
      exact run_peekValue hgap (isBlank_of_isDigit hdigit)
    refine (run_bind_of_ok hpeek).trans ?_
    rw [if_pos (by simp [hdigit])]
    refine (run_bind_of_ok hnumber).trans ?_
    rw [natural_of_le hn]
    rfl
  ofJson := natural_of_le hn expected

/-- A choice is restored when its name tells it. -/
theorem restores_choice {choices : List α} {name : α → String} {x : α}
    (h : choiceNamed choices name (name x) = .ok x) : (choice choices name).Restores x where
  isDecimal := rfl
  read layout depth gap rest hgap _ := by
    refine (run_bind_of_ok (run_peekValue hgap rfl)).trans ?_
    refine (run_bind_of_ok (run_string (name x) rest)).trans ?_
    dsimp only
    rw [h]
    rfl
  ofJson := h

/-! ## Values that may be missing, and lists -/

/-- A value that is missing is restored as missing. -/
theorem restores_none (codec : Codec α) : codec.optional.Restores none where
  isDecimal := rfl
  read layout depth gap rest hgap _ := by
    refine (run_bind_of_ok (run_peekToken hgap rfl)).trans ?_
    refine (run_bind_of_ok (run_drop _ _)).trans ?_
    exact run_bind_of_ok (run_word ['u', 'l', 'l'] rest)
  ofJson := rfl

/-- A value that is there is restored as there, when it is not written as null. -/
theorem Restores.some {codec : Codec α} {x : α} (h : codec.Restores x)
    (hnull : codec.toJson x ≠ .null) : codec.optional.Restores (some x) where
  isDecimal := h.isDecimal
  read layout depth gap rest hgap hrest := by
    have hread := h.read layout depth gap_nil hrest
    rw [List.nil_append] at hread
    obtain ⟨c, cs, hwrite, hopening⟩ := exists_write layout depth h.isDecimal
    have hpeek : peekToken.run (gap ++ (write layout depth (codec.toJson x) ++ rest)) =
        .ok (Option.some c, write layout depth (codec.toJson x) ++ rest) := by
      rw [hwrite]
      exact run_peekToken hgap hopening.notBlank
    refine (run_bind_of_ok hpeek).trans ?_
    split
    · next heq => exact absurd (Option.some.inj heq) (hopening.notNull hnull)
    · exact run_bind_of_ok hread
  ofJson := by
    have hjson := h.ofJson
    show codec.optional.ofJson (codec.toJson x) = .ok (Option.some x)
    unfold optional
    dsimp only
    split
    · next heq => exact absurd heq hnull
    · rw [hjson]
      rfl

/-- A value that may be missing is restored, when no value is written as null. -/
theorem restores_optional {codec : Codec α} {x : Option α} (h : ∀ y ∈ x, codec.Restores y)
    (hnull : ∀ y, codec.toJson y ≠ .null) : codec.optional.Restores x := by
  cases x with
  | none => exact restores_none codec
  | some y => exact (h y rfl).some (hnull y)

/-- A list is restored when each of its elements is. -/
theorem Restores.list {codec : Codec α} {xs : List α} (h : ∀ x ∈ xs, codec.Restores x) :
    codec.list.Restores xs where
  isDecimal := rfl
  read layout depth gap rest hgap _ := by
    have hitems : ReadsItems codec.read codec.toJson layout (depth + 1) xs := fun x hx =>
      ⟨(h x hx).isDecimal, fun rest hrest => (h x hx).read layout (depth + 1) gap_nil hrest⟩
    have hlist : (inList (items codec.read >>= pure)).run
        (write layout depth (.list (xs.map codec.toJson)) ++ rest) = .ok (xs, rest) :=
      run_inList_items hitems (fun _ => rfl) rest
    rw [bind_pure] at hlist
    obtain ⟨more, hwrite⟩ := exists_write_list layout depth (xs.map codec.toJson) rest
    show codec.list.read.run (gap ++ (write layout depth (.list (xs.map codec.toJson)) ++ rest)) = _
    rw [hwrite] at hlist ⊢
    exact (run_bind_of_ok (run_peekValue hgap rfl)).trans hlist
  ofJson := by
    show (xs.map codec.toJson).mapM codec.ofJson = .ok xs
    induction xs with
    | nil => rfl
    | cons x xs ih =>
        rw [List.map_cons, Outcome.mapM_cons, (h x List.mem_cons_self).ofJson,
          ih fun y hy => h y (List.mem_cons_of_mem x hy)]
        rfl

/-! ## Fields -/

/-- A field of a value is restored: by its codec when it is written, else from its absence. -/
def FieldCodec.Restores (field : FieldCodec α) (value : α) : Prop :=
  if field.unwritten value then Fields.absent field = .ok value else field.codec.Restores value

section

variable {codec : Codec α} {x : α} {y : Option α}

/-- A required field is restored like its value. -/
theorem restores_required (key : String) (h : codec.Restores x) : (required key codec).Restores x :=
  h

/-- A field with a default is restored like its value, which is always written. -/
theorem restores_defaulted (key : String) (value : α) (h : codec.Restores x) :
    (defaulted key codec value).Restores x :=
  h

/-- A field that may be null is restored, when no value is written as null. -/
theorem restores_nullable (key : String) (h : ∀ x ∈ y, codec.Restores x)
    (hnull : ∀ x, codec.toJson x ≠ .null) : (nullable key codec).Restores y :=
  restores_optional h hnull

/-- A field that may be left out is restored, when no value is written as null. -/
theorem restores_omittable (key : String) (h : ∀ x ∈ y, codec.Restores x)
    (hnull : ∀ x, codec.toJson x ≠ .null) : (omittable key codec).Restores y := by
  cases y with
  | none => exact rfl
  | some x => exact restores_optional h hnull

end

/-! ## Records -/

namespace Fields

variable {fields : Fields α σ} {name : String}

/-- All fields of a value are restored. -/
def Restores : {α σ : Type} → Fields α σ → α → Prop
  | _, _, .nil, _ => True
  | _, _, .cons field rest, (value, others) => field.Restores value ∧ rest.Restores others

/-- What has been seen when the written form of a value has been read. -/
def seen : {α σ : Type} → Fields α σ → α → σ
  | _, _, .nil, _ => ()
  | _, _, .cons field rest, (value, others) =>
      (if field.unwritten value then none else some value, rest.seen others)

/-- The fields of a record that were all seen make the record. -/
theorem finish_seen {x : α} (h : fields.Restores x) : fields.finish (fields.seen x) = .ok x := by
  -- A field that was not written has not been seen, and its absence stands for its value.
  induction fields with
  | nil => rfl
  | cons field rest ih =>
      obtain ⟨value, others⟩ := x
      obtain ⟨hfirst, hrest⟩ := h
      have hothers := ih hrest
      unfold FieldCodec.Restores at hfirst
      unfold finish seen
      by_cases hwritten : field.unwritten value
      · rw [if_pos hwritten] at hfirst ⊢
        rw [hfirst, hothers]
        rfl
      · rw [if_neg hwritten, hothers]
        rfl

/-- A record is written under the keys of its fields. -/
theorem keys_toEntries (fields : Fields α σ) (x : α) :
    ∀ entry ∈ fields.toEntries x, entry.1 ∈ fields.keys := by
  induction fields with
  | nil => nofun
  | cons field rest ih =>
      obtain ⟨value, others⟩ := x
      intro entry hentry
      unfold toEntries at hentry
      split at hentry
      · exact List.mem_cons_of_mem _ (ih others entry hentry)
      · rcases List.mem_cons.1 hentry with rfl | hentry
        · exact List.mem_cons_self
        · exact List.mem_cons_of_mem _ (ih others entry hentry)

/-- A key that is no field of a record is not written for it. -/
theorem ne_of_mem_toEntries (fields : Fields α σ) {key : String} (hfresh : key ∉ fields.keys)
    (x : α) : ∀ entry ∈ fields.toEntries x, key ≠ entry.1 := by
  rintro entry hentry heq
  exact hfresh (heq ▸ keys_toEntries fields x entry hentry)

/-! ### Entries of later fields

An entry that belongs to a later field is taken up by the later fields, whatever has been seen of
the first.
-/

section

variable {field : FieldCodec α} {rest : Fields β τ} {key : String} {s t : τ}
  {found : List (String × Json)}

/-- An entry under another key is left to the later fields. -/
theorem readEntry_cons_of_ne (hkey : field.key ≠ key) {cs left : List Char}
    (h : (rest.readEntry key s).run cs = .ok (t, left)) (first : Option α) :
    ((Fields.cons field rest).readEntry key (first, s)).run cs = .ok ((first, t), left) := by
  have hmap : ((first, ·) <$> rest.readEntry key s).run cs = .ok ((first, t), left) :=
    run_map_of_ok h
  unfold readEntry at h hmap ⊢
  rw [slot]
  simp only [if_neg hkey]
  cases hslot : rest.slot key s with
  | unknown =>
      rw [hslot] at hmap
      simpa only [map_bind, map_pure] using hmap
  | taken =>
      rw [hslot] at h
      cases h
  | free read ofJson =>
      rw [hslot] at hmap
      simpa only [map_eq_pure_bind, bind_assoc] using hmap

/-- An entry of a value under another key is left to the later fields. -/
theorem ofEntry_cons_of_ne (hkey : field.key ≠ key) {json : Json}
    (h : rest.ofEntry s (key, json) = .ok t) (first : Option α) :
    (Fields.cons field rest).ofEntry (first, s) (key, json) = .ok (first, t) := by
  unfold ofEntry at h ⊢
  rw [slot]
  simp only [if_neg hkey] at h ⊢
  cases hslot : rest.slot key s with
  | unknown =>
      rw [hslot] at h
      rw [Except.ok.inj h]
  | taken =>
      rw [hslot] at h
      cases h
  | free read ofJson =>
      rw [hslot] at h
      dsimp only at h ⊢
      rw [h]
      rfl

/-- Entries of the later fields leave the first field as it was. -/
theorem gathers_cons (hkeys : ∀ entry ∈ found, field.key ≠ entry.1)
    (h : Gathers rest.readEntry layout depth s found t) (first : Option α) :
    Gathers (Fields.cons field rest).readEntry layout depth (first, s) found (first, t) := by
  induction h with
  | nil s => exact .nil _
  | cons hfirst _ ih =>
      refine .cons (fun more hends => ?_) (ih fun entry hentry => hkeys entry (.tail _ hentry))
      exact readEntry_cons_of_ne (hkeys _ List.mem_cons_self) (hfirst more hends) first

/-- Entries of a value for the later fields leave the first field as it was. -/
theorem foldlM_cons (hkeys : ∀ entry ∈ found, field.key ≠ entry.1)
    (h : found.foldlM rest.ofEntry s = .ok t) (first : Option α) :
    found.foldlM (Fields.cons field rest).ofEntry (first, s) = .ok (first, t) := by
  induction found generalizing s with
  | nil =>
      cases h
      rfl
  | cons entry found ih =>
      rw [List.foldlM_cons] at h ⊢
      obtain ⟨next, hnext, hmore⟩ := Outcome.bind_eq_ok.1 h
      refine Outcome.bind_eq_ok.2 ⟨(first, next), ?_, ?_⟩
      · exact ofEntry_cons_of_ne (hkeys entry List.mem_cons_self) hnext first
      · exact ih (fun entry hentry => hkeys entry (.tail _ hentry)) hmore

end

/-! ### All entries -/

/-- The entries that are written for a record gather all of its fields, by induction on the
fields. -/
theorem gathers_toEntries {x : α} (hkeys : fields.keys.Nodup) (h : fields.Restores x) :
    Gathers fields.readEntry layout depth fields.unseen (fields.toEntries x) (fields.seen x) := by
  induction fields with
  | nil => exact .nil _
  | cons field rest ih =>
      obtain ⟨value, others⟩ := x
      obtain ⟨hfirst, hrest⟩ := h
      obtain ⟨hfresh, hkeys⟩ := List.nodup_cons.1 hkeys
      have hne := ne_of_mem_toEntries rest hfresh others
      have hothers := gathers_cons hne (ih hkeys hrest)
      unfold FieldCodec.Restores at hfirst
      unfold toEntries seen unseen
      by_cases hwritten : field.unwritten value
      · rw [if_pos hwritten, if_pos hwritten]
        exact hothers none
      · rw [if_neg hwritten] at hfirst
        rw [if_neg hwritten, if_neg hwritten]
        refine .cons (fun more hends => ?_) (hothers (some value))
        obtain ⟨gap, hgap, hcolon⟩ := exists_colon layout
        unfold readEntry slot
        rw [if_pos rfl, hcolon]
        refine (run_bind_of_ok (run_colon _)).trans ?_
        exact run_bind_of_ok (hfirst.read layout depth hgap hends)

/-- The entries of the value of a record gather all of its fields, by induction on the fields. -/
theorem foldlM_toEntries {x : α} (hkeys : fields.keys.Nodup) (h : fields.Restores x) :
    (fields.toEntries x).foldlM fields.ofEntry fields.unseen = .ok (fields.seen x) := by
  induction fields with
  | nil => rfl
  | cons field rest ih =>
      obtain ⟨value, others⟩ := x
      obtain ⟨hfirst, hrest⟩ := h
      obtain ⟨hfresh, hkeys⟩ := List.nodup_cons.1 hkeys
      have hne := ne_of_mem_toEntries rest hfresh others
      have hothers := foldlM_cons hne (ih hkeys hrest)
      unfold FieldCodec.Restores at hfirst
      unfold toEntries seen unseen
      by_cases hwritten : field.unwritten value
      · rw [if_pos hwritten, if_pos hwritten]
        exact hothers none
      · rw [if_neg hwritten] at hfirst
        rw [if_neg hwritten, if_neg hwritten, List.foldlM_cons]
        refine Outcome.bind_eq_ok.2 ⟨(some value, rest.unseen), ?_, hothers (some value)⟩
        unfold ofEntry slot
        rw [if_pos rfl]
        simp only [Option.isSome_none, Bool.false_eq_true, if_false]
        rw [hfirst.ofJson]
        rfl

end Fields

/-- What is made of the fields that have been seen at the end of a record. -/
def Fields.finished (fields : Fields α σ) (seen : σ) : Reader α :=
  match fields.finish seen with
  | .ok value => return value
  | .error m => failUnplaced (.mismatch m)

/-- When all fields are there the record is read. -/
theorem Fields.run_finished {fields : Fields α σ} {x : α} (h : fields.Restores x)
    (left : List Char) : (fields.finished (fields.seen x)).run left = .ok (x, left) := by
  rw [Fields.finished, Fields.finish_seen h]
  rfl

/-- A record whose keys differ is restored when its fields are. -/
theorem restores_record {fields : Fields α σ} {x : α} (name : String)
    (hkeys : fields.keys.Nodup) (h : fields.Restores x) : (record name fields).Restores x where
  isDecimal := rfl
  read layout depth gap rest hgap _ := by
    have hobject : (inObject (entries fields.readEntry fields.unseen >>= fields.finished)).run
        (write layout depth (.object (fields.toEntries x)) ++ rest) = .ok (x, rest) :=
      run_inObject_entries (Fields.gathers_toEntries hkeys h) (Fields.run_finished h) rest
    obtain ⟨more, hwrite⟩ := exists_write_object layout depth (fields.toEntries x) rest
    show (record name fields).read.run
      (gap ++ (write layout depth (.object (fields.toEntries x)) ++ rest)) = _
    rw [hwrite] at hobject ⊢
    exact (run_bind_of_ok (run_peekValue hgap rfl)).trans hobject
  ofJson := by
    show ((fields.toEntries x).foldlM fields.ofEntry fields.unseen >>= fields.finish) = .ok x
    rw [Fields.foldlM_toEntries hkeys h]
    exact Fields.finish_seen h

end Codec

end TypedSql.Json
