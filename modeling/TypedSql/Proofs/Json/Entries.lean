import TypedSql.Proofs.Json.Codecs

namespace TypedSql.Json

open Reader Reading

/-! # The entries of an object

A text may be read as a whole value first, of which the entries are taken up later, or its entries
may be taken up while it is read. Both come to the same. An object is taken for a record by what it
has under each key, whatever else it has and in whatever order.
-/

/-! ## What a reader gives -/

section

variable {α β : Type} {P : α → Prop}

/-- Everything that a reader gives is of some kind. -/
def Gives (P : α → Prop) (r : Reader α) : Prop := ∀ cs a rest, r.run cs = .ok (a, rest) → P a

/-- A value given without reading is as good as it is. -/
theorem gives_pure {a : α} (h : P a) : Gives P (pure a) := by
  rintro cs _ rest ⟨⟩
  exact h

/-- A reader that fails gives nothing. -/
theorem gives_fail (cause : Cause) : Gives P (fail cause) := nofun

theorem gives_failAhead (cause : Cause) : Gives P (failAhead cause) := nofun

/-- What is given in the end is that of the last step. -/
theorem gives_bind {r : Reader β} {f : β → Reader α} (h : ∀ b, Gives P (f b)) :
    Gives P (r >>= f) := by
  intro cs a rest hrun
  obtain ⟨b, left, -, hlast⟩ := run_bind_eq_ok.1 hrun
  exact h b left a rest hlast

/-- A list gives what its body gives. -/
theorem gives_inList {body : Reader α} (h : Gives P body) : Gives P (inList body) := by
  intro cs a rest hrun
  obtain ⟨_, inside, -, hrun⟩ := run_bind_eq_ok.1 hrun
  obtain ⟨b, left, hbody, hrun⟩ := run_bind_eq_ok.1 hrun
  obtain ⟨_, _, -, hlast⟩ := run_bind_eq_ok.1 hrun
  cases hlast
  exact h inside a left (Outcome.mapError_eq_ok.1 hbody)

end

/-- Whether a value is an object. -/
def isObject : Json → Bool
  | .object _ => true
  | _ => false

/-- A reader that gives no object. -/
abbrev GivesNoObject (r : Reader Json) : Prop := Gives (fun json => json.isObject = false) r

section

variable (negative : Bool) (significand : Nat) (power : Int)

/-- A decimal number is no object. -/
theorem decimalOf_gives : GivesNoObject (decimalOf negative significand power) := by
  unfold decimalOf
  split
  · exact gives_fail _
  · exact gives_pure rfl

theorem exponent_gives : GivesNoObject (exponent negative significand power) := by
  unfold exponent
  refine gives_bind fun _ => gives_bind fun sign => ?_
  -- What follows is the same with a sign and without one.
  extract_lets afterSign
  have hafter : ∀ u, GivesNoObject (afterSign u) := by
    refine fun _ => gives_bind fun first => ?_
    split
    · exact gives_fail _
    · split
      · exact gives_failAhead _
      · refine gives_bind fun _ => gives_bind fun next => ?_
        split
        · split
          · refine gives_bind fun _ => ?_
            split
            · exact gives_fail _
            · exact gives_bind fun _ => decimalOf_gives _ _ _
          · exact decimalOf_gives _ _ _
        · exact decimalOf_gives _ _ _
  split
  · exact gives_bind hafter
  · exact hafter ()

theorem decimalEnd_gives : GivesNoObject (decimalEnd negative significand power) := by
  refine gives_bind fun _ => ?_
  split
  · exact exponent_gives _ _ _
  · exact exponent_gives _ _ _
  · exact decimalOf_gives _ _ _

theorem fraction_gives : GivesNoObject (fraction negative significand power) := by
  refine gives_bind fun _ => gives_bind fun first => ?_
  split
  · exact gives_failAhead _
  · split
    · exact gives_failAhead _
    · exact gives_bind fun _ => gives_bind fun _ => decimalEnd_gives _ _ _

theorem integerOf_gives : GivesNoObject (integerOf negative significand) := by
  unfold integerOf
  split
  · exact gives_pure rfl
  · split <;> exact gives_pure rfl

theorem numberEnd_gives : GivesNoObject (numberEnd negative significand) := by
  refine gives_bind fun _ => ?_
  split
  · exact fraction_gives _ _ _
  · exact exponent_gives _ _ _
  · exact exponent_gives _ _ _
  · exact integerOf_gives _ _

theorem unsigned_gives : GivesNoObject (unsigned negative) := by
  refine gives_bind fun first => ?_
  split
  · exact gives_fail _
  · refine gives_bind fun _ => gives_bind fun next => ?_
    split
    · split
      · exact gives_failAhead _
      · exact numberEnd_gives _ _
    · exact numberEnd_gives _ _
  · split
    · exact gives_failAhead _
    · refine gives_bind fun _ => gives_bind fun beyond => ?_
      split
      · exact numberEnd_gives _ _
      · refine gives_bind fun _ => ?_
        split
        · exact fraction_gives _ _ _
        · exact decimalEnd_gives _ _ _

/-- A number is no object. -/
theorem number_gives : GivesNoObject number := by
  refine gives_bind fun _ => ?_
  split
  · exact gives_bind fun _ => unsigned_gives _
  · exact unsigned_gives _

end

/-- Only an opening brace leads to an object. -/
theorem scalar_gives (first : Char) : GivesNoObject (scalar first) := by
  unfold scalar
  split
  · exact gives_bind fun _ => gives_bind fun _ => gives_pure rfl
  · exact gives_bind fun _ => gives_bind fun _ => gives_pure rfl
  · exact gives_bind fun _ => gives_bind fun _ => gives_pure rfl
  · exact gives_bind fun _ => gives_pure rfl
  · split
    · exact number_gives
    · exact gives_failAhead _

/-! ## Objects read as values -/

section

variable {α σ : Type} {depth : Nat} {cs rest : List Char}

/-- An object is read when its body is, with the brace that closes it after that. -/
theorem run_inObject_eq_ok {body : Reader α} {x : α} :
    (inObject body).run cs = .ok (x, rest) ↔
      ∃ left, body.run (cs.drop 1) = .ok (x, left) ∧ objectEnd.run left = .ok ((), rest) := by
  constructor
  · intro h
    obtain ⟨_, inside, hdrop, h⟩ := run_bind_eq_ok.1 h
    obtain ⟨_, left, hbody, h⟩ := run_bind_eq_ok.1 h
    obtain ⟨_, _, hclose, hlast⟩ := run_bind_eq_ok.1 h
    cases hdrop
    cases hlast
    exact ⟨left, Outcome.mapError_eq_ok.1 hbody, hclose⟩
  · rintro ⟨left, hbody, hclose⟩
    refine run_bind_eq_ok.2 ⟨(), cs.drop 1, rfl, run_bind_eq_ok.2 ⟨x, left, ?_, ?_⟩⟩
    · exact Outcome.mapError_eq_ok.2 hbody
    · exact run_bind_eq_ok.2 ⟨(), rest, hclose, rfl⟩

/-- Entries whose values are there, taken up one after another, lead from one state to another. What
an entry does to the state may depend on its value, but not on where it stands. -/
inductive TakesUp (entry : String → σ → Reader σ) (depth : Nat) :
    σ → List (String × Json) → σ → Prop
  | nil (s : σ) : TakesUp entry depth s [] s
  | cons {s next t : σ} {key : String} {json : Json} {found : List (String × Json)}
      (first : ∀ cs rest, (do colon; value depth).run cs = .ok (json, rest) →
        (entry key s).run cs = .ok (next, rest))
      (more : TakesUp entry depth next found t) : TakesUp entry depth s ((key, json) :: found) t

/-- The loop that keeps all values tells what every other loop over the entries does. -/
theorem exists_entriesLoop {fuel : Nat} {first : Bool} {found all : List (String × Json)}
    (h : (entriesLoop (valueEntry depth) fuel first found).run cs = .ok (all, rest)) :
    ∃ more, all = more.reverse ++ found ∧
      ∀ {σ : Type} {entry : String → σ → Reader σ} {s t : σ}, TakesUp entry depth s more t →
        (entriesLoop entry fuel first s).run cs = .ok (t, rest) := by
  -- Both loops look at the same text: where the one takes a value, the other takes the entry.
  induction fuel generalizing first found cs with
  | zero => cases h
  | succ fuel ih =>
      obtain ⟨follows, atKey, hfollows, h⟩ := run_bind_eq_ok.1 h
      cases follows with
      | false =>
          cases h
          refine ⟨[], rfl, fun hmore => ?_⟩
          cases hmore
          exact run_bind_eq_ok.2 ⟨_, _, hfollows, rfl⟩
      | true =>
          obtain ⟨key, atColon, hkey, h⟩ := run_bind_eq_ok.1 h
          obtain ⟨found', left, hentry, h⟩ := run_bind_eq_ok.1 h
          obtain ⟨_, atValue, hcolon, hentry⟩ := run_bind_eq_ok.1 hentry
          obtain ⟨json, left', hvalue, hentry⟩ := run_bind_eq_ok.1 hentry
          cases hentry
          obtain ⟨more, hall, hmore⟩ := ih h
          refine ⟨(key, json) :: more, by simp [hall], fun htakes => ?_⟩
          cases htakes with
          | cons hfirst hothers =>
              have hvalue' : (do colon; value depth).run atColon = .ok (json, left) :=
                run_bind_eq_ok.2 ⟨(), atValue, hcolon, hvalue⟩
              refine run_bind_eq_ok.2 ⟨_, _, hfollows, run_bind_eq_ok.2 ⟨_, _, hkey, ?_⟩⟩
              exact run_bind_eq_ok.2 ⟨_, _, hfirst _ _ hvalue', hmore hothers⟩

/-- A text that starts with an object starts with its brace, and its entries can be taken up while
they are read. -/
theorem exists_object {found : List (String × Json)}
    (h : (value (depth + 1)).run cs = .ok (.object found, rest)) :
    ∃ opened, peekValue.run cs = .ok ('\x7b', opened) ∧
      ∀ {σ : Type} {entry : String → σ → Reader σ} {s t : σ}, TakesUp entry depth s found t →
        (inObject (entries entry s)).run opened = .ok (t, rest) := by
  rw [value] at h
  obtain ⟨c, opened, hpeek, h⟩ := run_bind_eq_ok.1 h
  split at h
  -- A list and a single value are no object, so the text starts with a brace.
  · have hlist : GivesNoObject (inList (return .list (← items (value depth)))) :=
      gives_inList (gives_bind fun _ => gives_pure rfl)
    cases hlist _ _ _ h
  · refine ⟨opened, hpeek, fun htakes => ?_⟩
    obtain ⟨left, hbody, hclose⟩ := run_inObject_eq_ok.1 h
    obtain ⟨all, left', hentries, hlast⟩ := run_bind_eq_ok.1 hbody
    cases hlast
    obtain ⟨_, _, hget, hloop⟩ := run_bind_eq_ok.1 hentries
    cases hget
    obtain ⟨more, hall, hmore⟩ := exists_entriesLoop hloop
    have hfound : all.reverse = more := by simp [hall]
    rw [hfound] at htakes
    exact run_inObject_eq_ok.2 ⟨left, hmore htakes, hclose⟩
  · cases scalar_gives c _ _ _ h

/-- A text holds a value when nothing but blanks follows it. -/
theorem readAll_eq_ok {r : Reader α} {text : String} {x : α} :
    readAll r text = .ok x ↔ ∃ left last, r.run text.toList = .ok (x, left) ∧
      peekToken.run left = .ok (none, last) := by
  unfold readAll
  dsimp only
  constructor
  · intro h
    split at h
    · next x' left' hwhole =>
        obtain rfl : x' = x := Except.ok.inj h
        obtain ⟨x', left, hvalue, hwhole⟩ := run_bind_eq_ok.1 hwhole
        obtain ⟨next, last, hpeek, hwhole⟩ := run_bind_eq_ok.1 hwhole
        cases next with
        | none =>
            cases hwhole
            exact ⟨left, _, hvalue, hpeek⟩
        | some c => cases hwhole
    · cases h
  · rintro ⟨left, last, hvalue, hpeek⟩
    rw [run_bind_of_ok hvalue, run_bind_of_ok hpeek]
    rfl

end

/-! ## Records of entries in any order -/

/-- The values that entries have under a key. -/
def valuesOf (key : String) (entries : List (String × Json)) : List Json :=
  (entries.filter fun entry => entry.1 = key).map Prod.snd

section

variable {key : String} {entry : String × Json} {entries : List (String × Json)}

theorem valuesOf_cons_of_eq (h : entry.1 = key) :
    valuesOf key (entry :: entries) = entry.2 :: valuesOf key entries := by
  rw [valuesOf, List.filter_cons_of_pos (by simpa using h)]
  rfl

theorem valuesOf_cons_of_ne (h : entry.1 ≠ key) :
    valuesOf key (entry :: entries) = valuesOf key entries := by
  rw [valuesOf, List.filter_cons_of_neg (by simpa using h)]
  rfl

/-- There are no values under a key that no entry has. -/
theorem valuesOf_eq_nil_iff : valuesOf key entries = [] ↔ ∀ entry ∈ entries, entry.1 ≠ key := by
  simp [valuesOf, List.filter_eq_nil_iff]

/-- The values under a key stay when the entries of another key are left out. -/
theorem valuesOf_filter_of_ne {other : String} (h : key ≠ other) :
    valuesOf key (entries.filter fun entry => entry.1 ≠ other) = valuesOf key entries := by
  rw [valuesOf, List.filter_filter, valuesOf]
  refine congrArg (List.map Prod.snd) (List.filter_congr fun entry _ => ?_)
  by_cases hentry : entry.1 = key
  · simp [hentry, h]
  · simp [hentry]

end

namespace Codec

variable {α β σ τ : Type} {entries : List (String × Json)}

/-- Entries give a field: once, or not at all where the field may be left out. -/
inductive FieldCodec.Given (field : FieldCodec α) (entries : List (String × Json)) (value : α) :
    Prop
  | once {json : Json} (h : valuesOf field.key entries = [json])
      (hjson : field.codec.ofJson json = .ok value)
  | absent (h : valuesOf field.key entries = []) (habsent : Fields.absent field = .ok value)

namespace Fields

/-- Entries give all fields of a record. -/
def Given (entries : List (String × Json)) : {α σ : Type} → Fields α σ → α → Prop
  | _, _, .nil, _ => True
  | _, _, .cons field rest, (value, others) => field.Given entries value ∧ rest.Given entries others

section

variable {field : FieldCodec α} {rest : Fields β τ} {value : α} {json : Json} {s t : τ}

/-- The entries of other fields are taken up around the one of the first field. -/
theorem foldlM_cons_of_once (hvalues : valuesOf field.key entries = [json])
    (hjson : field.codec.ofJson json = .ok value)
    (h : (entries.filter fun entry => entry.1 ≠ field.key).foldlM rest.ofEntry s = .ok t) :
    entries.foldlM (Fields.cons field rest).ofEntry (none, s) = .ok (some value, t) := by
  induction entries generalizing s with
  | nil => cases hvalues
  | cons entry entries ih =>
      by_cases hkey : entry.1 = field.key
      · -- This is the entry of the field, and there is no other one after it.
        rw [valuesOf_cons_of_eq hkey] at hvalues
        obtain ⟨rfl, hnone⟩ := List.cons.inj hvalues
        have hothers := valuesOf_eq_nil_iff.1 hnone
        have hfirst : (Fields.cons field rest).ofEntry (none, s) entry = .ok (some value, s) := by
          unfold ofEntry slot
          rw [if_pos hkey.symm]
          simp only [Option.isSome_none, Bool.false_eq_true, if_false]
          rw [hjson]
          rfl
        have hfilter : (entries.filter fun entry => entry.1 ≠ field.key) = entries :=
          List.filter_eq_self.2 (by simpa using hothers)
        rw [List.filter_cons_of_neg (by simpa using hkey), hfilter] at h
        rw [Outcome.foldlM_cons_of_eq_ok hfirst]
        exact foldlM_cons (fun entry hentry => (hothers entry hentry).symm) h (some value)
      · rw [valuesOf_cons_of_ne hkey] at hvalues
        rw [List.filter_cons_of_pos (by simpa using hkey), List.foldlM_cons] at h
        obtain ⟨next, hnext, hmore⟩ := Outcome.bind_eq_ok.1 h
        rw [Outcome.foldlM_cons_of_eq_ok (ofEntry_cons_of_ne (Ne.symm hkey) hnext none)]
        exact ih hvalues hmore

end

/-- A field is given by the entries without another key. -/
theorem given_filter {fields : Fields α σ} {x : α} {key : String} (hkey : key ∉ fields.keys)
    (h : fields.Given entries x) :
    fields.Given (entries.filter fun entry => entry.1 ≠ key) x := by
  induction fields with
  | nil => trivial
  | cons field rest ih =>
      obtain ⟨value, others⟩ := x
      obtain ⟨hfirst, hrest⟩ := h
      rw [keys, List.mem_cons, not_or] at hkey
      have hvalues : valuesOf field.key (entries.filter fun entry => entry.1 ≠ key) =
          valuesOf field.key entries := valuesOf_filter_of_ne (Ne.symm hkey.1)
      refine ⟨?_, ih hkey.2 hrest⟩
      cases hfirst with
      | once h hjson => exact .once (hvalues.trans h) hjson
      | absent h habsent => exact .absent (hvalues.trans h) habsent

/-- Entries that give all fields are a record, in whatever order they come and whatever others are
among them. -/
theorem exists_seen {fields : Fields α σ} {x : α} (hkeys : fields.keys.Nodup)
    (h : fields.Given entries x) :
    ∃ seen, entries.foldlM fields.ofEntry fields.unseen = .ok seen ∧
      fields.finish seen = .ok x := by
  -- The other fields are given by the entries that are not those of the first one.
  induction fields generalizing entries with
  | nil =>
      refine ⟨(), ?_, rfl⟩
      induction entries with
      | nil => rfl
      | cons entry entries ih => exact (Outcome.foldlM_cons_of_eq_ok rfl).trans (ih trivial)
  | cons field rest ih =>
      obtain ⟨value, others⟩ := x
      obtain ⟨hfirst, hrest⟩ := h
      obtain ⟨hfresh, hkeys⟩ := List.nodup_cons.1 hkeys
      obtain ⟨seen, hseen, hfinish⟩ := ih hkeys (given_filter hfresh hrest)
      cases hfirst with
      | once hvalues hjson =>
          refine ⟨(some value, seen), foldlM_cons_of_once hvalues hjson hseen, ?_⟩
          rw [finish, hfinish]
          rfl
      | absent hvalues habsent =>
          have hothers := valuesOf_eq_nil_iff.1 hvalues
          have hfilter : (entries.filter fun entry => entry.1 ≠ field.key) = entries :=
            List.filter_eq_self.2 (by simpa using hothers)
          rw [hfilter] at hseen
          refine ⟨(none, seen), foldlM_cons (fun e he => (hothers e he).symm) hseen none, ?_⟩
          rw [finish, hfinish, habsent]
          rfl

end Fields

theorem ofJson_map {codec : Codec α} {forth : α → β} {back : β → α} {json : Json} {x : α}
    (h : codec.ofJson json = .ok x) : (codec.map forth back).ofJson json = .ok (forth x) := by
  show forth <$> codec.ofJson json = .ok (forth x)
  rw [h]
  rfl

/-- A record is read from an object that gives each of its fields. -/
theorem ofJson_object {fields : Fields α σ} {x : α} (name : String) (hkeys : fields.keys.Nodup)
    (h : fields.Given entries x) : (record name fields).ofJson (.object entries) = .ok x := by
  obtain ⟨seen, hseen, hfinish⟩ := Fields.exists_seen hkeys h
  exact Outcome.bind_eq_ok.2 ⟨seen, hseen, hfinish⟩

end Codec

end TypedSql.Json
